import ClusterEvidence.Resource.Basic
import ClusterEvidence.Status
import ClusterEvidence.Yaml.Decode

/-!
# Resources from manifests

`decode` takes a resource of a kind out of a manifest, and `update` does so into a
resource that stays as it was when that fails. What the manifest does not mention keeps
its default, and keys that are not mentioned here are not read. `kindOf` is the kind a
manifest says it is of.

A container state is looked into even where there is none : `running` is set unless the
state is a map without that key.
-/

namespace ClusterEvidence

open Yaml (Decoded child fieldOr textField objects texts toBool toInt32 toInt64)

/-! ## Parts -/

/-- A map of strings; empty where it is missing or null. -/
def Labels.decode : Option Yaml → Decoded Labels
  | none => .ok .empty
  | some .null => .ok .empty
  | some (.map l) => (l.mapM Yaml.labelEntry).map Labels.ofList
  | some _ => .error .notStringMap

/-- The metadata that stands under `metadata` in a manifest. -/
def ObjectMeta.decode (d : Option Yaml) : Decoded ObjectMeta := do
  let name ← textField "name" d
  let namespaceName ← textField "namespace" d
  let uid ← textField "uid" d
  let resourceVersion ← textField "resourceVersion" d
  let labels ← Labels.decode (child "labels" d)
  let annotations ← Labels.decode (child "annotations" d)
  pure { name, namespaceName, uid, resourceVersion, labels, annotations }

/-- A condition in the status of a resource. -/
def Condition.decode (d : Option Yaml) : Decoded Condition := do
  let type ← textField "type" d
  let status ← textField "status" d
  let reason ← textField "reason" d
  let message ← textField "message" d
  pure { type, status, reason, message }

/-- An object that an operator says it has to do with. -/
def ObjectReference.decode (d : Option Yaml) : Decoded ObjectReference := do
  let group ← textField "group" d
  let resource ← textField "resource" d
  let namespaceName ← textField "namespace" d
  let name ← textField "name" d
  pure { group, resource, namespaceName, name }

/-- The version of something an operator runs. -/
def OperandVersion.decode (d : Option Yaml) : Decoded OperandVersion := do
  let name ← textField "name" d
  let version ← textField "version" d
  pure { name, version }

/-- A range of addresses of pods, and how much of it each node gets. -/
def ClusterNetworkEntry.decode (d : Option Yaml) : Decoded ClusterNetworkEntry := do
  let cidr ← textField "cidr" d
  let hostBits ← fieldOr toInt32 0 "hostPrefix" d
  pure { cidr, hostBits }

/-- A provider that users can log in with. -/
def IdentityProvider.decode (d : Option Yaml) : Decoded IdentityProvider := do
  let name ← textField "name" d
  let type ← textField "type" d
  let mappingMethod ← textField "mappingMethod" d
  pure { name, type, mappingMethod }

/-- An address of a node, with its type. -/
def NodeAddress.decode (d : Option Yaml) : Decoded NodeAddress := do
  let type ← textField "type" d
  let address ← textField "address" d
  pure { type, address }

/-- What a node says about its system. -/
def NodeSystemInfo.decode (d : Option Yaml) : Decoded NodeSystemInfo := do
  let machineId ← textField "machineID" d
  let systemUuid ← textField "systemUUID" d
  let bootId ← textField "bootID" d
  let kernelVersion ← textField "kernelVersion" d
  let osImage ← textField "osImage" d
  let containerRuntimeVersion ← textField "containerRuntimeVersion" d
  let kubeletVersion ← textField "kubeletVersion" d
  let architecture ← textField "architecture" d
  let operatingSystem ← textField "operatingSystem" d
  pure
    { machineId, systemUuid, bootId, kernelVersion, osImage, containerRuntimeVersion,
      kubeletVersion, architecture, operatingSystem }

/-- An image on a node, with its names and its size. -/
def ContainerImage.decode (d : Option Yaml) : Decoded ContainerImage := do
  let names ← texts (child "names" d)
  let sizeBytes ← fieldOr toInt64 0 "sizeBytes" d
  pure { names, sizeBytes }

/-- How a container ended. -/
def Termination.decode (d : Option Yaml) : Decoded Termination := do
  let exitCode ← fieldOr toInt32 0 "exitCode" d
  let reason ← textField "reason" d
  let message ← textField "message" d
  pure { exitCode, reason, message }

/-- The state of a container. Of how it ended only a map is read. -/
def ContainerState.decode (d : Option Yaml) : Decoded ContainerState := do
  let end? := child "terminated" d
  let terminated ← match end? with
    | some (.map _) => (Termination.decode end?).map some
    | _ => pure none
  let waitingReason ← textField "reason" (child "waiting" d)
  pure { terminated, waitingReason, running := (child "running" d).isSome }

/-- The status of a container, with its state and the one before. -/
def ContainerStatus.decode (d : Option Yaml) : Decoded ContainerStatus := do
  let name ← textField "name" d
  let image ← textField "image" d
  let ready ← fieldOr toBool false "ready" d
  let restartCount ← fieldOr toInt32 0 "restartCount" d
  let state ← ContainerState.decode (child "state" d)
  let lastState ← ContainerState.decode (child "lastState" d)
  pure { name, image, ready, restartCount, state, lastState }

/-! ## Resources -/

/-- An operator, read from the metadata and the status. -/
def ClusterOperator.decode (d : Option Yaml) : Decoded ClusterOperator := do
  let metadata ← ObjectMeta.decode (child "metadata" d)
  let status := child "status" d
  let conditions ← objects Condition.decode (child "conditions" status)
  let relatedObjects ← objects ObjectReference.decode (child "relatedObjects" status)
  let versions ← objects OperandVersion.decode (child "versions" status)
  pure { metadata, conditions, relatedObjects, versions }

/-- The version of the cluster : what is asked for, and what is aimed at. -/
def ClusterVersion.decode (d : Option Yaml) : Decoded ClusterVersion := do
  let metadata ← ObjectMeta.decode (child "metadata" d)
  let spec := child "spec" d
  let clusterId ← textField "clusterID" spec
  let channel ← textField "channel" spec
  let updateServer ← textField "upstream" spec
  let status := child "status" d
  let desired := child "desired" status
  let desiredVersion ← textField "version" desired
  let desiredImage ← textField "image" desired
  let conditions ← objects Condition.decode (child "conditions" status)
  pure { metadata, clusterId, channel, updateServer, desiredVersion, desiredImage, conditions }

/-- The infrastructure, read from the metadata and the status. -/
def Infrastructure.decode (d : Option Yaml) : Decoded Infrastructure := do
  let metadata ← ObjectMeta.decode (child "metadata" d)
  let status := child "status" d
  let platform ← textField "platform" status
  let infrastructureName ← textField "infrastructureName" status
  let apiServerUrl ← textField "apiServerURL" status
  let apiServerInternalUrl ← textField "apiServerInternalURI" status
  let etcdDiscoveryDomain ← textField "etcdDiscoveryDomain" status
  pure
    { metadata, platform, infrastructureName, apiServerUrl, apiServerInternalUrl,
      etcdDiscoveryDomain }

/-- The network, read from the metadata and the specification. -/
def Network.decode (d : Option Yaml) : Decoded Network := do
  let metadata ← ObjectMeta.decode (child "metadata" d)
  let spec := child "spec" d
  let clusterNetwork ← objects ClusterNetworkEntry.decode (child "clusterNetwork" spec)
  let serviceNetwork ← texts (child "serviceNetwork" spec)
  let networkType ← textField "networkType" spec
  pure { metadata, clusterNetwork, serviceNetwork, networkType }

/-- How users are authenticated, with the name of the metadata of the server. -/
def Authentication.decode (d : Option Yaml) : Decoded Authentication := do
  let metadata ← ObjectMeta.decode (child "metadata" d)
  let spec := child "spec" d
  let type ← textField "type" spec
  let oauthMetadataName ← textField "name" (child "oauthMetadata" spec)
  pure { metadata, type, oauthMetadataName }

/-- The feature gate, with the set that is enabled. -/
def FeatureGate.decode (d : Option Yaml) : Decoded FeatureGate := do
  let metadata ← ObjectMeta.decode (child "metadata" d)
  let featureSet ← textField "featureSet" (child "spec" d)
  pure { metadata, featureSet }

/-- The login server, with its providers in order. -/
def OAuth.decode (d : Option Yaml) : Decoded OAuth := do
  let metadata ← ObjectMeta.decode (child "metadata" d)
  let identityProviders ←
    objects IdentityProvider.decode (child "identityProviders" (child "spec" d))
  pure { metadata, identityProviders }

/-- The ingress, with its domain. -/
def Ingress.decode (d : Option Yaml) : Decoded Ingress := do
  let metadata ← ObjectMeta.decode (child "metadata" d)
  let domain ← textField "domain" (child "spec" d)
  pure { metadata, domain }

/-- The proxy as it is asked for. -/
def ProxySpec.decode (d : Option Yaml) : Decoded ProxySpec := do
  let httpProxy ← textField "httpProxy" d
  let httpsProxy ← textField "httpsProxy" d
  let noProxy ← textField "noProxy" d
  let readinessEndpoints ← texts (child "readinessEndpoints" d)
  let trustedCa ← textField "name" (child "trustedCA" d)
  pure { httpProxy, httpsProxy, noProxy, readinessEndpoints, trustedCa }

/-- The proxy as it is. -/
def ProxyStatus.decode (d : Option Yaml) : Decoded ProxyStatus := do
  let httpProxy ← textField "httpProxy" d
  let httpsProxy ← textField "httpsProxy" d
  let noProxy ← textField "noProxy" d
  pure { httpProxy, httpsProxy, noProxy }

/-- The proxy, read from the metadata, the specification and the status. -/
def Proxy.decode (d : Option Yaml) : Decoded Proxy := do
  let metadata ← ObjectMeta.decode (child "metadata" d)
  let spec ← ProxySpec.decode (child "spec" d)
  let status ← ProxyStatus.decode (child "status" d)
  pure { metadata, spec, status }

/-- A node, read from the metadata, the specification and the status. -/
def Node.decode (d : Option Yaml) : Decoded Node := do
  let metadata ← ObjectMeta.decode (child "metadata" d)
  let spec := child "spec" d
  let providerId ← textField "providerID" spec
  let unschedulable ← fieldOr toBool false "unschedulable" spec
  let status := child "status" d
  let conditions ← objects Condition.decode (child "conditions" status)
  let addresses ← objects NodeAddress.decode (child "addresses" status)
  let nodeInfo ← NodeSystemInfo.decode (child "nodeInfo" status)
  let images ← objects ContainerImage.decode (child "images" status)
  pure { metadata, providerId, unschedulable, conditions, addresses, nodeInfo, images }

/-- A pod, with the statuses of its containers in order. -/
def Pod.decode (d : Option Yaml) : Decoded Pod := do
  let metadata ← ObjectMeta.decode (child "metadata" d)
  let nodeName ← textField "nodeName" (child "spec" d)
  let status := child "status" d
  let phase ← textField "phase" status
  let conditions ← objects Condition.decode (child "conditions" status)
  let initContainers ← objects ContainerStatus.decode (child "initContainerStatuses" status)
  let containers ← objects ContainerStatus.decode (child "containerStatuses" status)
  pure { metadata, phase, nodeName, conditions, initContainers, containers }

/-- The fields of a resource of a kind. -/
def decodeFields : (k : Kind) → Yaml → Decoded k.Object
  | .clusterOperator, d => ClusterOperator.decode (some d)
  | .clusterVersion, d => ClusterVersion.decode (some d)
  | .infrastructure, d => Infrastructure.decode (some d)
  | .network, d => Network.decode (some d)
  | .authentication, d => Authentication.decode (some d)
  | .featureGate, d => FeatureGate.decode (some d)
  | .oauth, d => OAuth.decode (some d)
  | .ingress, d => Ingress.decode (some d)
  | .proxy, d => Proxy.decode (some d)
  | .node, d => Node.decode (some d)
  | .pod, d => Pod.decode (some d)

/-! ## Manifests -/

/-- The text of a scalar in the metadata; empty where there is none. -/
def metadataText (k : Bytes) (d : Yaml) : Bytes :=
  (((d.get? "metadata").bind (Yaml.get? k)).bind Yaml.text?).getD []

/-- The kind a manifest says it is of; empty where it says none. -/
def kindOf (d : Yaml) : Bytes := ((d.get? "kind").bind Yaml.text?).getD []

/-- The resource of a kind that a manifest describes. -/
def decode (k : Kind) (d : Yaml) : Fetched k.Object :=
  if !d.isMap then .error ⟨.parseError, k.name ++ ": manifest is not a map"⟩
  else match decodeFields k d with
    | .ok o => .ok o
    | .error m => .error ⟨.parseError, k.name ++ " '" ++ metadataText "name" d ++ "': " ++ m.message⟩

/-- The resource a manifest describes in place of another, which stays where the
manifest does not describe one. -/
def update (k : Kind) (d : Yaml) (o : k.Object) : Status × k.Object :=
  match decode k d with
  | .ok o' => (.ok, o')
  | .error st => (st, o)

end ClusterEvidence
