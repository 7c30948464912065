import ClusterEvidence.Proofs.Json.RoundTrip
import ClusterEvidence.Proofs.Yaml.OfJson

/-!
# Resources read back

A resource of any kind that is written as JSON text, read as a JSON tree and taken as a
document is the resource again (`update_encodeText`), whatever its strings, numbers, lists and
maps are and whichever of its parts are absent.

It is so part by part (`decode_toJson` of each) : writer and reader agree on every key and on
where it stands, and what the writer leaves out is what the reader takes its absence for. Most
parts need no more than the equations of `Yaml.fieldOr_ofJson` and its kin. The state of a
container is different, since a reader looks for its parts without asking what they hold
(`ContainerState.child_toJson`).
-/

namespace ClusterEvidence

open Yaml (ofJson objects_ofJson)

/-! ## Parts -/

@[simp] theorem ObjectMeta.decode_toJson (m : ObjectMeta) :
    ObjectMeta.decode (some (ofJson m.toJson)) = .ok m := by
  simp [ObjectMeta.decode, ObjectMeta.toJson]

@[simp] theorem Condition.decode_toJson (c : Condition) :
    Condition.decode (some (ofJson c.toJson)) = .ok c := by
  simp [Condition.decode, Condition.toJson]

@[simp] theorem ObjectReference.decode_toJson (r : ObjectReference) :
    ObjectReference.decode (some (ofJson r.toJson)) = .ok r := by
  simp [ObjectReference.decode, ObjectReference.toJson]

@[simp] theorem OperandVersion.decode_toJson (v : OperandVersion) :
    OperandVersion.decode (some (ofJson v.toJson)) = .ok v := by
  simp [OperandVersion.decode, OperandVersion.toJson]

@[simp] theorem ClusterNetworkEntry.decode_toJson (e : ClusterNetworkEntry) :
    ClusterNetworkEntry.decode (some (ofJson e.toJson)) = .ok e := by
  simp [ClusterNetworkEntry.decode, ClusterNetworkEntry.toJson]

@[simp] theorem IdentityProvider.decode_toJson (p : IdentityProvider) :
    IdentityProvider.decode (some (ofJson p.toJson)) = .ok p := by
  simp [IdentityProvider.decode, IdentityProvider.toJson]

@[simp] theorem NodeAddress.decode_toJson (a : NodeAddress) :
    NodeAddress.decode (some (ofJson a.toJson)) = .ok a := by
  simp [NodeAddress.decode, NodeAddress.toJson]

@[simp] theorem NodeSystemInfo.decode_toJson (i : NodeSystemInfo) :
    NodeSystemInfo.decode (some (ofJson i.toJson)) = .ok i := by
  simp [NodeSystemInfo.decode, NodeSystemInfo.toJson]

@[simp] theorem ContainerImage.decode_toJson (i : ContainerImage) :
    ContainerImage.decode (some (ofJson i.toJson)) = .ok i := by
  simp [ContainerImage.decode, ContainerImage.toJson]

@[simp] theorem Termination.decode_toJson (t : Termination) :
    Termination.decode (some (ofJson t.toJson)) = .ok t := by
  simp [Termination.decode, Termination.toJson]

/-- What a decoder finds in a container state, part by part. -/
theorem ContainerState.child_toJson (s : ContainerState) :
    Yaml.child "terminated" (some (ofJson s.toJson)) =
        s.terminated.map (fun t => ofJson t.toJson) ∧
      Yaml.child "waiting" (some (ofJson s.toJson)) =
        (Json.valueUnless s.waitingReason.isEmpty
          (.obj [Json.field "reason" s.waitingReason])).map ofJson ∧
      Yaml.child "running" (some (ofJson s.toJson)) =
        (Json.valueUnless (!s.running) (.obj [])).map ofJson := by
  obtain ⟨terminated, waitingReason, running⟩ := s
  by_cases hwaiting : waitingReason = []
  · cases terminated <;> cases running <;> simp [toJson, Json.valueUnless, hwaiting]
  · cases terminated <;> cases running <;> simp [toJson, Json.valueUnless, hwaiting]

@[simp] theorem ContainerState.decode_toJson (s : ContainerState) :
    ContainerState.decode (some (ofJson s.toJson)) = .ok s := by
  obtain ⟨hterminated, hwaiting, hrunning⟩ := s.child_toJson
  have hrunning' : (Yaml.child "running" (some (ofJson s.toJson))).isSome = s.running := by
    rw [hrunning]
    cases s.running with
    | true => rfl
    | false => rfl
  unfold ContainerState.decode
  rw [hterminated, hwaiting, hrunning', Yaml.textField_valueUnless]
  obtain ⟨terminated, waitingReason, running⟩ := s
  cases terminated with
  | none => rfl
  | some t =>
    have hend : Termination.decode (some (ofJson t.toJson)) = .ok t := t.decode_toJson
    simp only [Option.map_some, hend]
    rfl

@[simp] theorem ContainerStatus.decode_toJson (c : ContainerStatus) :
    ContainerStatus.decode (some (ofJson c.toJson)) = .ok c := by
  simp [ContainerStatus.decode, ContainerStatus.toJson]

@[simp] theorem objects_conditions (l : List Condition) :
    Yaml.objects Condition.decode (some (ofJson (conditionsJson l))) = .ok l :=
  objects_ofJson Condition.decode_toJson

/-! ## Resources -/

theorem ClusterOperator.decode_toJson (o : ClusterOperator) :
    ClusterOperator.decode (some (ofJson o.toJson)) = .ok o := by
  simp [ClusterOperator.decode, ClusterOperator.toJson, manifest, objects_ofJson]

theorem ClusterVersion.decode_toJson (o : ClusterVersion) :
    ClusterVersion.decode (some (ofJson o.toJson)) = .ok o := by
  simp [ClusterVersion.decode, ClusterVersion.toJson, manifest]

theorem Infrastructure.decode_toJson (o : Infrastructure) :
    Infrastructure.decode (some (ofJson o.toJson)) = .ok o := by
  simp [Infrastructure.decode, Infrastructure.toJson, manifest]

theorem Network.decode_toJson (o : Network) :
    Network.decode (some (ofJson o.toJson)) = .ok o := by
  simp [Network.decode, Network.toJson, manifest, objects_ofJson]

theorem Authentication.decode_toJson (o : Authentication) :
    Authentication.decode (some (ofJson o.toJson)) = .ok o := by
  simp [Authentication.decode, Authentication.toJson, manifest]

theorem FeatureGate.decode_toJson (o : FeatureGate) :
    FeatureGate.decode (some (ofJson o.toJson)) = .ok o := by
  simp [FeatureGate.decode, FeatureGate.toJson, manifest]

theorem OAuth.decode_toJson (o : OAuth) : OAuth.decode (some (ofJson o.toJson)) = .ok o := by
  simp [OAuth.decode, OAuth.toJson, manifest, objects_ofJson]

theorem Ingress.decode_toJson (o : Ingress) :
    Ingress.decode (some (ofJson o.toJson)) = .ok o := by
  simp [Ingress.decode, Ingress.toJson, manifest]

theorem Proxy.decode_toJson (o : Proxy) : Proxy.decode (some (ofJson o.toJson)) = .ok o := by
  simp [Proxy.decode, ProxySpec.decode, ProxyStatus.decode, Proxy.toJson, manifest]

theorem Node.decode_toJson (o : Node) : Node.decode (some (ofJson o.toJson)) = .ok o := by
  obtain ⟨metadata, providerId, unschedulable, conditions, addresses, nodeInfo, images⟩ := o
  by_cases himages : images = []
  · cases unschedulable <;> simp [Node.decode, Node.toJson, manifest, objects_ofJson, himages]
  · cases unschedulable <;> simp [Node.decode, Node.toJson, manifest, objects_ofJson, himages]

theorem Pod.decode_toJson (o : Pod) : Pod.decode (some (ofJson o.toJson)) = .ok o := by
  simp [Pod.decode, Pod.toJson, manifest, objects_ofJson]

/-- Every kind of resource comes back as it was. -/
theorem decodeFields_encode : ∀ (k : Kind) (o : k.Object),
    decodeFields k (ofJson (encode k o)) = .ok o
  | .clusterOperator, o => o.decode_toJson
  | .clusterVersion, o => o.decode_toJson
  | .infrastructure, o => o.decode_toJson
  | .network, o => o.decode_toJson
  | .authentication, o => o.decode_toJson
  | .featureGate, o => o.decode_toJson
  | .oauth, o => o.decode_toJson
  | .ingress, o => o.decode_toJson
  | .proxy, o => o.decode_toJson
  | .node, o => o.decode_toJson
  | .pod, o => o.decode_toJson

theorem isMap_encode (k : Kind) (o : k.Object) : (ofJson (encode k o)).isMap = true := by
  cases k <;> rfl

/-- A resource comes back from the document of its JSON. -/
theorem decode_encode (k : Kind) (o : k.Object) : decode k (ofJson (encode k o)) = .ok o := by
  rw [decode, isMap_encode, decodeFields_encode]
  rfl

/-- A resource that is written as text and read as a document, into any resource of its kind,
is there again as it was. -/
theorem update_encodeText (k : Kind) (o old : k.Object) :
    (Json.read? (encodeText k o)).map (fun j => update k (ofJson j) old) = some (.ok, o) := by
  rw [encodeText, Json.read?_render, Option.map_some, update, decode_encode]

end ClusterEvidence
