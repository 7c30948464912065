import ClusterEvidence.Resource.Labels

/-!
# Cluster resources

The resources that evidence is gathered from, with the fields that gathering, judging
health and anonymizing need. Every field has a default, so `{}` is the resource of a
manifest that says nothing.

`Kind` lists the eleven kinds and `Kind.Object` is the type of the resources of a kind;
functions over all kinds take the kind first and match on it.
-/

namespace ClusterEvidence

/-- What every resource says about itself. -/
structure ObjectMeta where
  name : Bytes := []
  namespaceName : Bytes := []
  uid : Bytes := []
  resourceVersion : Bytes := []
  labels : Labels := .empty
  annotations : Labels := .empty
deriving DecidableEq

/-- One aspect of a resource's state; `status` is `True`, `False` or `Unknown`. -/
structure Condition where
  type : Bytes := []
  status : Bytes := []
  reason : Bytes := []
  message : Bytes := []
deriving DecidableEq

/-! ## Cluster configuration -/

/-- Another object that belongs to an operator. -/
structure ObjectReference where
  group : Bytes := []
  resource : Bytes := []
  namespaceName : Bytes := []
  name : Bytes := []
deriving DecidableEq

/-- The version of something an operator runs. -/
structure OperandVersion where
  name : Bytes := []
  version : Bytes := []
deriving DecidableEq

/-- An operator of the cluster, with the state it reports and the objects it looks after. -/
structure ClusterOperator where
  metadata : ObjectMeta := {}
  conditions : List Condition := []
  relatedObjects : List ObjectReference := []
  versions : List OperandVersion := []
deriving DecidableEq

/-- The version the cluster has and the server it asks for updates. -/
structure ClusterVersion where
  metadata : ObjectMeta := {}
  clusterId : Bytes := []
  channel : Bytes := []
  updateServer : Bytes := []
  desiredVersion : Bytes := []
  desiredImage : Bytes := []
  conditions : List Condition := []
deriving DecidableEq

/-- The platform below the cluster and the addresses of its interfaces. -/
structure Infrastructure where
  metadata : ObjectMeta := {}
  platform : Bytes := []
  infrastructureName : Bytes := []
  apiServerUrl : Bytes := []
  apiServerInternalUrl : Bytes := []
  etcdDiscoveryDomain : Bytes := []
deriving DecidableEq

/-- A range of pod addresses. -/
structure ClusterNetworkEntry where
  cidr : Bytes := []
  hostBits : Int32 := 0
deriving DecidableEq

/-- The address ranges of pods and services. -/
structure Network where
  metadata : ObjectMeta := {}
  clusterNetwork : List ClusterNetworkEntry := []
  serviceNetwork : List Bytes := []
  networkType : Bytes := []
deriving DecidableEq

/-- How users are authenticated. -/
structure Authentication where
  metadata : ObjectMeta := {}
  type : Bytes := []
  oauthMetadataName : Bytes := []
deriving DecidableEq

/-- The set of optional features that is switched on. -/
structure FeatureGate where
  metadata : ObjectMeta := {}
  featureSet : Bytes := []
deriving DecidableEq

/-- A way to log in. -/
structure IdentityProvider where
  name : Bytes := []
  type : Bytes := []
  mappingMethod : Bytes := []
deriving DecidableEq

/-- The identity providers users can log in with. -/
structure OAuth where
  metadata : ObjectMeta := {}
  identityProviders : List IdentityProvider := []
deriving DecidableEq

/-- The domain that applications are reached under. -/
structure Ingress where
  metadata : ObjectMeta := {}
  domain : Bytes := []
deriving DecidableEq

/-- The proxy settings asked for; `noProxy` is comma separated. -/
structure ProxySpec where
  httpProxy : Bytes := []
  httpsProxy : Bytes := []
  noProxy : Bytes := []
  readinessEndpoints : List Bytes := []
  trustedCa : Bytes := []
deriving DecidableEq

/-- The proxy settings in force. -/
structure ProxyStatus where
  httpProxy : Bytes := []
  httpsProxy : Bytes := []
  noProxy : Bytes := []
deriving DecidableEq

/-- The proxy that is asked for and the one in use. -/
structure Proxy where
  metadata : ObjectMeta := {}
  spec : ProxySpec := {}
  status : ProxyStatus := {}
deriving DecidableEq

/-! ## Nodes and pods -/

/-- One address of a node and what kind it is. -/
structure NodeAddress where
  type : Bytes := []
  address : Bytes := []
deriving DecidableEq

/-- What a node's machine and system call themselves. -/
structure NodeSystemInfo where
  machineId : Bytes := []
  systemUuid : Bytes := []
  bootId : Bytes := []
  kernelVersion : Bytes := []
  osImage : Bytes := []
  containerRuntimeVersion : Bytes := []
  kubeletVersion : Bytes := []
  architecture : Bytes := []
  operatingSystem : Bytes := []
deriving DecidableEq

/-- An image on a node under all its names. -/
structure ContainerImage where
  names : List Bytes := []
  sizeBytes : Int64 := 0
deriving DecidableEq

/-- A machine of the cluster. -/
structure Node where
  metadata : ObjectMeta := {}
  providerId : Bytes := []
  unschedulable : Bool := false
  conditions : List Condition := []
  addresses : List NodeAddress := []
  nodeInfo : NodeSystemInfo := {}
  images : List ContainerImage := []
deriving DecidableEq

/-- How a container ended. -/
structure Termination where
  exitCode : Int32 := 0
  reason : Bytes := []
  message : Bytes := []
deriving DecidableEq

/-- The state of a container; only an end with a failure decides about health. -/
structure ContainerState where
  terminated : Option Termination := none
  waitingReason : Bytes := []
  running : Bool := false
deriving DecidableEq

/-- A container of a pod, in its current state and the one before. -/
structure ContainerStatus where
  name : Bytes := []
  image : Bytes := []
  ready : Bool := false
  restartCount : Int32 := 0
  state : ContainerState := {}
  lastState : ContainerState := {}
deriving DecidableEq

/-- A group of containers on one node. -/
structure Pod where
  metadata : ObjectMeta := {}
  phase : Bytes := []
  nodeName : Bytes := []
  conditions : List Condition := []
  initContainers : List ContainerStatus := []
  containers : List ContainerStatus := []
deriving DecidableEq

/-! ## Kinds -/

/-- The kinds of resources. -/
inductive Kind
  | clusterOperator
  | clusterVersion
  | infrastructure
  | network
  | authentication
  | featureGate
  | oauth
  | ingress
  | proxy
  | node
  | pod
deriving DecidableEq

namespace Kind

/-- The name manifests use. -/
def name : Kind → Bytes
  | clusterOperator => "ClusterOperator"
  | clusterVersion => "ClusterVersion"
  | infrastructure => "Infrastructure"
  | network => "Network"
  | authentication => "Authentication"
  | featureGate => "FeatureGate"
  | oauth => "OAuth"
  | ingress => "Ingress"
  | proxy => "Proxy"
  | node => "Node"
  | pod => "Pod"

/-- The API group and version a kind belongs to. -/
def apiVersion : Kind → Bytes
  | node | pod => "v1"
  | _ => "config.openshift.io/v1"

/-- The resources of a kind. -/
@[reducible] def Object : Kind → Type
  | clusterOperator => ClusterOperator
  | clusterVersion => ClusterVersion
  | infrastructure => Infrastructure
  | network => Network
  | authentication => Authentication
  | featureGate => FeatureGate
  | oauth => OAuth
  | ingress => Ingress
  | proxy => Proxy
  | node => Node
  | pod => Pod

/-- What a resource says about itself. -/
def metadata : (k : Kind) → k.Object → ObjectMeta
  | clusterOperator, o => o.metadata
  | clusterVersion, o => o.metadata
  | infrastructure, o => o.metadata
  | network, o => o.metadata
  | authentication, o => o.metadata
  | featureGate, o => o.metadata
  | oauth, o => o.metadata
  | ingress, o => o.metadata
  | proxy, o => o.metadata
  | node, o => o.metadata
  | pod, o => o.metadata

end Kind

end ClusterEvidence
