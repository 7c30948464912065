import ClusterEvidence.Proofs.Results
import ClusterEvidence.Proofs.Yaml.KeyPaths
import ClusterEvidence.Resource.Decode

/-!
# The fields of resources

What is decoded on its own is a `Part` : a resource, an item of one of its lists, or how a
container ended. A part has fields (`Part.fields`), each read from the end of a path of keys in the
way its `Form` says. They are all there is to decoding : a part is decoded if all its fields can be
read, to the one object that has what was read in them, and otherwise the first field that cannot
be read is what is wrong (`Part.reads`).

A decoder reads its fields one after the other (`ReadsRest`), and those of a section where that is
decoded. Each step follows the decoder.
-/

namespace ClusterEvidence

open Yaml (Decoded child textField fieldOr valueOr texts objects toText toInt32 toInt64 toBool)

variable {α β : Type}

/-! ## Parts -/

/-- What is decoded on its own. -/
inductive Part
  | resource (k : Kind)
  | condition
  | objectReference
  | operandVersion
  | clusterNetworkEntry
  | identityProvider
  | nodeAddress
  | containerImage
  | containerStatus
  | termination

namespace Part

/-- What a part is decoded to. -/
@[reducible] def Object : Part → Type
  | resource k => k.Object
  | condition => Condition
  | objectReference => ObjectReference
  | operandVersion => OperandVersion
  | clusterNetworkEntry => ClusterNetworkEntry
  | identityProvider => IdentityProvider
  | nodeAddress => NodeAddress
  | containerImage => ContainerImage
  | containerStatus => ContainerStatus
  | termination => Termination

/-- The object that a document describes. -/
def decode : (p : Part) → Yaml → Decoded p.Object
  | resource k, d => decodeFields k d
  | condition, d => Condition.decode (some d)
  | objectReference, d => ObjectReference.decode (some d)
  | operandVersion, d => OperandVersion.decode (some d)
  | clusterNetworkEntry, d => ClusterNetworkEntry.decode (some d)
  | identityProvider, d => IdentityProvider.decode (some d)
  | nodeAddress, d => NodeAddress.decode (some d)
  | containerImage, d => ContainerImage.decode (some d)
  | containerStatus, d => ContainerStatus.decode (some d)
  | termination, d => Termination.decode (some d)

end Part

/-! ## Forms of fields -/

/-- How a field is read. A mark is there or not, whatever it is. -/
inductive Form : Type → Type
  | text : Form Bytes
  | int32 : Form Int32
  | int64 : Form Int64
  | truth : Form Bool
  | texts : Form (List Bytes)
  | labels : Form Labels
  | list (r : Part) : Form (List r.Object)
  | optional (r : Part) : Form (Option r.Object)
  | mark : Form Bool

namespace Form

/-- The value of what may be missing. -/
def read : Form α → Option Yaml → Decoded α
  | text, d => valueOr toText [] d
  | int32, d => valueOr toInt32 0 d
  | int64, d => valueOr toInt64 0 d
  | truth, d => valueOr toBool false d
  | texts, d => Yaml.texts d
  | labels, d => Labels.decode d
  | list r, d => Yaml.itemsOr .notList r.decode d
  | optional r, d =>
    match d with
    | some (.map l) => (r.decode (.map l)).map some
    | _ => .ok none
  | mark, d => .ok d.isSome

/-- The value of a field that is not mentioned. -/
def default : Form α → α
  | text => []
  | int32 => 0
  | int64 => 0
  | truth => false
  | texts => []
  | labels => .empty
  | list _ => []
  | optional _ => none
  | mark => false

/-- Only whether it is there counts. -/
def isMark : Form α → Bool
  | mark => true
  | _ => false

/-- A field that is not there is read as its default. -/
theorem read_none (f : Form α) : f.read none = .ok f.default := by
  cases f with
  | text => rfl
  | int32 => rfl
  | int64 => rfl
  | truth => rfl
  | texts => rfl
  | labels => rfl
  | list r => rfl
  | optional r => rfl
  | mark => rfl

/-- A null is read as the default, unless the field is a mark. -/
theorem read_null (f : Form α) (h : f.isMark = false) : f.read (some .null) = .ok f.default := by
  cases f with
  | text => rfl
  | int32 => rfl
  | int64 => rfl
  | truth => rfl
  | texts => rfl
  | labels => rfl
  | list r => rfl
  | optional r => rfl
  | mark => cases h

theorem read_null_isOk (f : Form α) : ∃ a, f.read (some .null) = .ok a := by
  cases hmark : f.isMark with
  | false => exact ⟨_, f.read_null hmark⟩
  | true =>
    cases f with
    | mark => exact ⟨true, rfl⟩
    | _ => cases hmark

end Form

/-! ## Fields -/

/-- What a path of keys leads to in something that may be missing. Where there is no map to look
into on the way, it is a null. -/
def reach : List Bytes → Option Yaml → Option Yaml
  | [], d => d
  | k :: p, d => reach p (child k d)

/-- A field of an object : where it is read from, how, and where it is kept. -/
structure PartField (α : Type) where
  {Value : Type}
  path : List Bytes
  form : Form Value
  get : α → Value

namespace PartField

/-- What a field is read as. -/
def read (f : PartField α) (d : Option Yaml) : Decoded f.Value := f.form.read (reach f.path d)

/-- The fields of what stands at the end of a path. -/
def inSection (path : List Bytes) (get : α → β) (fields : List (PartField β)) : List (PartField α) :=
  fields.map fun f => ⟨path ++ f.path, f.form, fun o => f.get (get o)⟩

/-- What is wrong with the first field that cannot be read. -/
def mismatch? (fields : List (PartField α)) (d : Option Yaml) : Option Yaml.Mismatch :=
  fields.findSome? fun f => failure? (f.read d)

end PartField

open PartField (inSection mismatch?)

theorem reach_append (p q : List Bytes) (d : Option Yaml) :
    reach (p ++ q) d = reach q (reach p d) := by
  induction p generalizing d with
  | nil => rfl
  | cons k p ih => exact ih (child k d)

/-- The fields of a section are read from where the section stands. -/
theorem forall_mem_inSection {path : List Bytes} {get : α → β} {fields : List (PartField β)}
    {d : Option Yaml} {o : α} :
    (∀ f ∈ inSection path get fields, f.read d = .ok (f.get o)) ↔
      ∀ f ∈ fields, f.read (reach path d) = .ok (f.get (get o)) := by
  simp only [inSection, List.forall_mem_map, PartField.read, reach_append]

theorem mismatch?_inSection (path : List Bytes) (get : α → β) (fields : List (PartField β))
    (d : Option Yaml) : mismatch? (inSection path get fields) d = mismatch? fields (reach path d) := by
  simp only [mismatch?, inSection, List.findSome?_map, Function.comp_def, PartField.read, reach_append]

/-! ## Decoders -/

/-- What is left of a decoder : it reads these fields, one after the other. Of the result it is
known already what has been read before. -/
structure ReadsRest (x : Decoded α) (d : Option Yaml) (fields : List (PartField α)) (known : α → Prop) :
    Prop where
  ok : ∀ o, x = .ok o ↔ known o ∧ ∀ f ∈ fields, f.read d = .ok (f.get o)
  failure : failure? x = mismatch? fields d

/-- The decoder reads these fields, one after the other. -/
def Reads (decode : Option Yaml → Decoded α) (fields : List (PartField α)) : Prop :=
  ∀ d, ReadsRest (decode d) d fields fun _ => True

namespace ReadsRest

variable {d : Option Yaml} {fields : List (PartField α)} {known : α → Prop}

/-- One field, and then the others. -/
theorem field {path : List Bytes} {form : Form β} {get : α → β} {x : Decoded β}
    {rest : β → Decoded α} (hx : x = form.read (reach path d))
    (h : ∀ b, ReadsRest (rest b) d fields fun o => known o ∧ get o = b) :
    ReadsRest (x >>= rest) d (⟨path, form, get⟩ :: fields) known where
  ok o := by
    subst hx
    rw [List.forall_mem_cons]
    constructor
    · intro hx
      obtain ⟨b, hb, hrest⟩ := bind_eq_ok.1 hx
      obtain ⟨⟨hknown, rfl⟩, hfields⟩ := ((h b).ok o).1 hrest
      exact ⟨hknown, hb, hfields⟩
    · rintro ⟨hknown, hf, hfields⟩
      exact bind_eq_ok.2 ⟨get o, hf, ((h _).ok o).2 ⟨⟨hknown, rfl⟩, hfields⟩⟩
  failure := by
    rw [mismatch?, List.findSome?_cons, PartField.read, ← hx]
    cases x with
    | error e => rfl
    | ok b => exact (h b).failure

/-- A field that can always be read, where its value is used. -/
theorem value {path : List Bytes} {form : Form β} {get : α → β} {x : Decoded α} {b : β}
    (hb : form.read (reach path d) = .ok b)
    (h : ReadsRest x d fields fun o => known o ∧ get o = b) :
    ReadsRest x d (⟨path, form, get⟩ :: fields) known where
  ok o := by
    rw [h.ok, List.forall_mem_cons, PartField.read, hb, Except.ok.injEq, and_assoc, eq_comm]
  failure := by
    rw [h.failure, mismatch?, mismatch?, List.findSome?_cons, PartField.read, hb]
    rfl

/-- A section with its fields, and then the others. -/
theorem inSection {decode : Option Yaml → Decoded β} {sectionFields : List (PartField β)}
    {path : List Bytes} {get : α → β} {x : Decoded β} {rest : β → Decoded α}
    (hdecode : Reads decode sectionFields) (hx : x = decode (reach path d))
    (h : ∀ b, ReadsRest (rest b) d fields fun o => known o ∧ get o = b) :
    ReadsRest (x >>= rest) d (PartField.inSection path get sectionFields ++ fields) known where
  ok o := by
    subst hx
    rw [List.forall_mem_append, forall_mem_inSection]
    constructor
    · intro hx
      obtain ⟨b, hb, hrest⟩ := bind_eq_ok.1 hx
      obtain ⟨⟨hknown, rfl⟩, hfields⟩ := ((h b).ok o).1 hrest
      exact ⟨hknown, (((hdecode _).ok _).1 hb).2, hfields⟩
    · rintro ⟨hknown, hsection, hfields⟩
      exact bind_eq_ok.2 ⟨get o, ((hdecode _).ok _).2 ⟨trivial, hsection⟩,
        ((h _).ok o).2 ⟨⟨hknown, rfl⟩, hfields⟩⟩
  failure := by
    have hsection := (hdecode (reach path d)).failure
    rw [mismatch?, List.findSome?_append, ← mismatch?, mismatch?_inSection, ← hsection, ← hx]
    cases x with
    | error e => rfl
    | ok b => exact (h b).failure

/-- Everything is read. -/
theorem done {o : α} (h : ∀ o', known o' ↔ o' = o) : ReadsRest (pure o) d [] known where
  ok o' := by
    rw [h]
    refine ⟨fun hx => ⟨(Except.ok.inj hx).symm, by simp⟩, fun ⟨heq, _⟩ => heq ▸ rfl⟩
  failure := rfl

end ReadsRest

/-! ## Tables of fields

In the order in which they are read. -/

/-- The fields of metadata : texts, and two maps of strings. -/
def ObjectMeta.fields : List (PartField ObjectMeta) :=
  [⟨["name"], .text, name⟩, ⟨["namespace"], .text, namespaceName⟩, ⟨["uid"], .text, uid⟩,
    ⟨["resourceVersion"], .text, resourceVersion⟩, ⟨["labels"], .labels, labels⟩,
    ⟨["annotations"], .labels, annotations⟩]

theorem ObjectMeta.reads : Reads ObjectMeta.decode ObjectMeta.fields := by
  intro d
  simp only [ObjectMeta.decode, ObjectMeta.fields, textField, fieldOr]
  refine .field rfl fun _ => .field rfl fun _ => .field rfl fun _ => .field rfl fun _ =>
    .field rfl fun _ => .field rfl fun _ => .done ?_
  rintro ⟨⟩
  simp [and_assoc]

/-- The fields of a condition, all of them texts. -/
def Condition.fields : List (PartField Condition) :=
  [⟨["type"], .text, type⟩, ⟨["status"], .text, status⟩, ⟨["reason"], .text, reason⟩,
    ⟨["message"], .text, message⟩]

theorem Condition.reads : Reads Condition.decode Condition.fields := by
  intro d
  simp only [Condition.decode, Condition.fields, textField, fieldOr]
  refine .field rfl fun _ => .field rfl fun _ => .field rfl fun _ => .field rfl fun _ => .done ?_
  rintro ⟨⟩
  simp [and_assoc]

/-- The fields of a related object, all of them texts. -/
def ObjectReference.fields : List (PartField ObjectReference) :=
  [⟨["group"], .text, group⟩, ⟨["resource"], .text, resource⟩,
    ⟨["namespace"], .text, namespaceName⟩, ⟨["name"], .text, name⟩]

theorem ObjectReference.reads : Reads ObjectReference.decode ObjectReference.fields := by
  intro d
  simp only [ObjectReference.decode, ObjectReference.fields, textField, fieldOr]
  refine .field rfl fun _ => .field rfl fun _ => .field rfl fun _ => .field rfl fun _ => .done ?_
  rintro ⟨⟩
  simp [and_assoc]

/-- The fields of a version, both of them texts. -/
def OperandVersion.fields : List (PartField OperandVersion) :=
  [⟨["name"], .text, name⟩, ⟨["version"], .text, version⟩]

theorem OperandVersion.reads : Reads OperandVersion.decode OperandVersion.fields := by
  intro d
  simp only [OperandVersion.decode, OperandVersion.fields, textField, fieldOr]
  refine .field rfl fun _ => .field rfl fun _ => .done ?_
  rintro ⟨⟩
  simp

/-- The fields of a range of addresses : a text and a number. -/
def ClusterNetworkEntry.fields : List (PartField ClusterNetworkEntry) :=
  [⟨["cidr"], .text, cidr⟩, ⟨["hostPrefix"], .int32, hostBits⟩]

theorem ClusterNetworkEntry.reads : Reads ClusterNetworkEntry.decode ClusterNetworkEntry.fields := by
  intro d
  simp only [ClusterNetworkEntry.decode, ClusterNetworkEntry.fields, textField, fieldOr]
  refine .field rfl fun _ => .field rfl fun _ => .done ?_
  rintro ⟨⟩
  simp

/-- The fields of a provider, all of them texts. -/
def IdentityProvider.fields : List (PartField IdentityProvider) :=
  [⟨["name"], .text, name⟩, ⟨["type"], .text, type⟩,
    ⟨["mappingMethod"], .text, mappingMethod⟩]

theorem IdentityProvider.reads : Reads IdentityProvider.decode IdentityProvider.fields := by
  intro d
  simp only [IdentityProvider.decode, IdentityProvider.fields, textField, fieldOr]
  refine .field rfl fun _ => .field rfl fun _ => .field rfl fun _ => .done ?_
  rintro ⟨⟩
  simp [and_assoc]

/-- The fields of an address, both of them texts. -/
def NodeAddress.fields : List (PartField NodeAddress) :=
  [⟨["type"], .text, type⟩, ⟨["address"], .text, address⟩]

theorem NodeAddress.reads : Reads NodeAddress.decode NodeAddress.fields := by
  intro d
  simp only [NodeAddress.decode, NodeAddress.fields, textField, fieldOr]
  refine .field rfl fun _ => .field rfl fun _ => .done ?_
  rintro ⟨⟩
  simp

/-- The fields of what a node says about its system, all of them texts. -/
def NodeSystemInfo.fields : List (PartField NodeSystemInfo) :=
  [⟨["machineID"], .text, machineId⟩, ⟨["systemUUID"], .text, systemUuid⟩,
    ⟨["bootID"], .text, bootId⟩, ⟨["kernelVersion"], .text, kernelVersion⟩,
    ⟨["osImage"], .text, osImage⟩,
    ⟨["containerRuntimeVersion"], .text, containerRuntimeVersion⟩,
    ⟨["kubeletVersion"], .text, kubeletVersion⟩, ⟨["architecture"], .text, architecture⟩,
    ⟨["operatingSystem"], .text, operatingSystem⟩]

theorem NodeSystemInfo.reads : Reads NodeSystemInfo.decode NodeSystemInfo.fields := by
  intro d
  simp only [NodeSystemInfo.decode, NodeSystemInfo.fields, textField, fieldOr]
  refine .field rfl fun _ => .field rfl fun _ => .field rfl fun _ => .field rfl fun _ =>
    .field rfl fun _ => .field rfl fun _ => .field rfl fun _ => .field rfl fun _ =>
    .field rfl fun _ => .done ?_
  rintro ⟨⟩
  simp [and_assoc]

/-- The fields of an image : a list of texts and a number. -/
def ContainerImage.fields : List (PartField ContainerImage) :=
  [⟨["names"], .texts, names⟩, ⟨["sizeBytes"], .int64, sizeBytes⟩]

theorem ContainerImage.reads : Reads ContainerImage.decode ContainerImage.fields := by
  intro d
  simp only [ContainerImage.decode, ContainerImage.fields, fieldOr]
  refine .field rfl fun _ => .field rfl fun _ => .done ?_
  rintro ⟨⟩
  simp

/-- The fields of how a container ended : a number and two texts. -/
def Termination.fields : List (PartField Termination) :=
  [⟨["exitCode"], .int32, exitCode⟩, ⟨["reason"], .text, reason⟩,
    ⟨["message"], .text, message⟩]

theorem Termination.reads : Reads Termination.decode Termination.fields := by
  intro d
  simp only [Termination.decode, Termination.fields, textField, fieldOr]
  refine .field rfl fun _ => .field rfl fun _ => .field rfl fun _ => .done ?_
  rintro ⟨⟩
  simp [and_assoc]

/-- The fields of a state : how it ended, a text a level deeper, and a mark. -/
def ContainerState.fields : List (PartField ContainerState) :=
  [⟨["terminated"], .optional .termination, terminated⟩,
    ⟨["waiting", "reason"], .text, waitingReason⟩, ⟨["running"], .mark, running⟩]

theorem ContainerState.decode_eq (d : Option Yaml) : ContainerState.decode d =
    ((Form.optional .termination).read (child "terminated" d) >>= fun terminated =>
      textField "reason" (child "waiting" d) >>= fun waitingReason =>
        pure { terminated, waitingReason, running := (child "running" d).isSome }) := by
  unfold ContainerState.decode
  cases child "terminated" d with
  | none => rfl
  | some v =>
    cases v with
    | map l => rfl
    | null => rfl
    | scalar s => rfl
    | seq items => rfl

theorem ContainerState.reads : Reads ContainerState.decode ContainerState.fields := by
  intro d
  simp only [ContainerState.decode_eq, ContainerState.fields, textField, fieldOr]
  refine .field rfl fun _ => .field rfl fun _ => ?_
  refine .value rfl (.done ?_)
  rintro ⟨⟩
  simp [and_assoc, reach]

/-- The fields of a container, those of its two states among them. -/
def ContainerStatus.fields : List (PartField ContainerStatus) :=
  [⟨["name"], .text, name⟩, ⟨["image"], .text, image⟩, ⟨["ready"], .truth, ready⟩,
    ⟨["restartCount"], .int32, restartCount⟩] ++
  (inSection ["state"] state ContainerState.fields ++
  (inSection ["lastState"] lastState ContainerState.fields ++ []))

theorem ContainerStatus.reads : Reads ContainerStatus.decode ContainerStatus.fields := by
  intro d
  simp only [ContainerStatus.decode, ContainerStatus.fields, textField, fieldOr]
  refine .field rfl fun _ => .field rfl fun _ => .field rfl fun _ => .field rfl fun _ =>
    .inSection ContainerState.reads rfl fun _ => .inSection ContainerState.reads rfl fun _ =>
    .done ?_
  rintro ⟨⟩
  simp [and_assoc]

/-- The fields of an operator : the metadata, and three lists of parts in the status. -/
def ClusterOperator.fields : List (PartField ClusterOperator) :=
  inSection ["metadata"] metadata ObjectMeta.fields ++
  [⟨["status", "conditions"], .list .condition, conditions⟩,
    ⟨["status", "relatedObjects"], .list .objectReference, relatedObjects⟩,
    ⟨["status", "versions"], .list .operandVersion, versions⟩]

theorem ClusterOperator.reads : Reads ClusterOperator.decode ClusterOperator.fields := by
  intro d
  simp only [ClusterOperator.decode, ClusterOperator.fields]
  refine .inSection ObjectMeta.reads rfl fun _ => .field rfl fun _ => .field rfl fun _ =>
    .field rfl fun _ => .done ?_
  rintro ⟨⟩
  simp [and_assoc]

/-- The fields of the version of the cluster, in the metadata and in both sections. -/
def ClusterVersion.fields : List (PartField ClusterVersion) :=
  inSection ["metadata"] metadata ObjectMeta.fields ++
  [⟨["spec", "clusterID"], .text, clusterId⟩, ⟨["spec", "channel"], .text, channel⟩,
    ⟨["spec", "upstream"], .text, updateServer⟩,
    ⟨["status", "desired", "version"], .text, desiredVersion⟩,
    ⟨["status", "desired", "image"], .text, desiredImage⟩,
    ⟨["status", "conditions"], .list .condition, conditions⟩]

theorem ClusterVersion.reads : Reads ClusterVersion.decode ClusterVersion.fields := by
  intro d
  simp only [ClusterVersion.decode, ClusterVersion.fields, textField, fieldOr]
  refine .inSection ObjectMeta.reads rfl fun _ => .field rfl fun _ => .field rfl fun _ =>
    .field rfl fun _ => .field rfl fun _ => .field rfl fun _ => .field rfl fun _ => .done ?_
  rintro ⟨⟩
  simp [and_assoc]

/-- The fields of the infrastructure : the metadata, and texts in the status. -/
def Infrastructure.fields : List (PartField Infrastructure) :=
  inSection ["metadata"] metadata ObjectMeta.fields ++
  [⟨["status", "platform"], .text, platform⟩,
    ⟨["status", "infrastructureName"], .text, infrastructureName⟩,
    ⟨["status", "apiServerURL"], .text, apiServerUrl⟩,
    ⟨["status", "apiServerInternalURI"], .text, apiServerInternalUrl⟩,
    ⟨["status", "etcdDiscoveryDomain"], .text, etcdDiscoveryDomain⟩]

theorem Infrastructure.reads : Reads Infrastructure.decode Infrastructure.fields := by
  intro d
  simp only [Infrastructure.decode, Infrastructure.fields, textField, fieldOr]
  refine .inSection ObjectMeta.reads rfl fun _ => .field rfl fun _ => .field rfl fun _ =>
    .field rfl fun _ => .field rfl fun _ => .field rfl fun _ => .done ?_
  rintro ⟨⟩
  simp [and_assoc]

/-- The fields of the network : the metadata, and two lists and a text in the specification. -/
def Network.fields : List (PartField Network) :=
  inSection ["metadata"] metadata ObjectMeta.fields ++
  [⟨["spec", "clusterNetwork"], .list .clusterNetworkEntry, clusterNetwork⟩,
    ⟨["spec", "serviceNetwork"], .texts, serviceNetwork⟩,
    ⟨["spec", "networkType"], .text, networkType⟩]

theorem Network.reads : Reads Network.decode Network.fields := by
  intro d
  simp only [Network.decode, Network.fields, textField, fieldOr]
  refine .inSection ObjectMeta.reads rfl fun _ => .field rfl fun _ => .field rfl fun _ =>
    .field rfl fun _ => .done ?_
  rintro ⟨⟩
  simp [and_assoc]

/-- The fields of how users are authenticated : the metadata and two texts, one of them a level
deeper. -/
def Authentication.fields : List (PartField Authentication) :=
  inSection ["metadata"] metadata ObjectMeta.fields ++
  [⟨["spec", "type"], .text, type⟩,
    ⟨["spec", "oauthMetadata", "name"], .text, oauthMetadataName⟩]

theorem Authentication.reads : Reads Authentication.decode Authentication.fields := by
  intro d
  simp only [Authentication.decode, Authentication.fields, textField, fieldOr]
  refine .inSection ObjectMeta.reads rfl fun _ => .field rfl fun _ => .field rfl fun _ => .done ?_
  rintro ⟨⟩
  simp [and_assoc]

/-- The fields of the feature gate : the metadata, and a text in the specification. -/
def FeatureGate.fields : List (PartField FeatureGate) :=
  inSection ["metadata"] metadata ObjectMeta.fields ++
  [⟨["spec", "featureSet"], .text, featureSet⟩]

theorem FeatureGate.reads : Reads FeatureGate.decode FeatureGate.fields := by
  intro d
  simp only [FeatureGate.decode, FeatureGate.fields, textField, fieldOr]
  refine .inSection ObjectMeta.reads rfl fun _ => .field rfl fun _ => .done ?_
  rintro ⟨⟩
  simp

/-- The fields of the login server : the metadata, and a list of parts in the specification. -/
def OAuth.fields : List (PartField OAuth) :=
  inSection ["metadata"] metadata ObjectMeta.fields ++
  [⟨["spec", "identityProviders"], .list .identityProvider, identityProviders⟩]

theorem OAuth.reads : Reads OAuth.decode OAuth.fields := by
  intro d
  simp only [OAuth.decode, OAuth.fields]
  refine .inSection ObjectMeta.reads rfl fun _ => .field rfl fun _ => .done ?_
  rintro ⟨⟩
  simp

/-- The fields of the ingress : the metadata, and a text in the specification. -/
def Ingress.fields : List (PartField Ingress) :=
  inSection ["metadata"] metadata ObjectMeta.fields ++
  [⟨["spec", "domain"], .text, domain⟩]

theorem Ingress.reads : Reads Ingress.decode Ingress.fields := by
  intro d
  simp only [Ingress.decode, Ingress.fields, textField, fieldOr]
  refine .inSection ObjectMeta.reads rfl fun _ => .field rfl fun _ => .done ?_
  rintro ⟨⟩
  simp

/-- The fields of the proxy as it is asked for : texts, a list, and the name of a reference. -/
def ProxySpec.fields : List (PartField ProxySpec) :=
  [⟨["httpProxy"], .text, httpProxy⟩, ⟨["httpsProxy"], .text, httpsProxy⟩,
    ⟨["noProxy"], .text, noProxy⟩, ⟨["readinessEndpoints"], .texts, readinessEndpoints⟩,
    ⟨["trustedCA", "name"], .text, trustedCa⟩]

theorem ProxySpec.reads : Reads ProxySpec.decode ProxySpec.fields := by
  intro d
  simp only [ProxySpec.decode, ProxySpec.fields, textField, fieldOr]
  refine .field rfl fun _ => .field rfl fun _ => .field rfl fun _ => .field rfl fun _ =>
    .field rfl fun _ => .done ?_
  rintro ⟨⟩
  simp [and_assoc]

/-- The fields of the proxy as it is, all of them texts. -/
def ProxyStatus.fields : List (PartField ProxyStatus) :=
  [⟨["httpProxy"], .text, httpProxy⟩, ⟨["httpsProxy"], .text, httpsProxy⟩,
    ⟨["noProxy"], .text, noProxy⟩]

theorem ProxyStatus.reads : Reads ProxyStatus.decode ProxyStatus.fields := by
  intro d
  simp only [ProxyStatus.decode, ProxyStatus.fields, textField, fieldOr]
  refine .field rfl fun _ => .field rfl fun _ => .field rfl fun _ => .done ?_
  rintro ⟨⟩
  simp [and_assoc]

/-- The fields of the proxy : the metadata, and those of its two sections. -/
def Proxy.fields : List (PartField Proxy) :=
  inSection ["metadata"] metadata ObjectMeta.fields ++
  (inSection ["spec"] spec ProxySpec.fields ++
  (inSection ["status"] status ProxyStatus.fields ++ []))

theorem Proxy.reads : Reads Proxy.decode Proxy.fields := by
  intro d
  simp only [Proxy.decode, Proxy.fields]
  refine .inSection ObjectMeta.reads rfl fun _ => .inSection ProxySpec.reads rfl fun _ =>
    .inSection ProxyStatus.reads rfl fun _ => .done ?_
  rintro ⟨⟩
  simp [and_assoc]

/-- The fields of a node, those of its metadata and of its system among them. -/
def Node.fields : List (PartField Node) :=
  inSection ["metadata"] metadata ObjectMeta.fields ++
  ([⟨["spec", "providerID"], .text, providerId⟩,
    ⟨["spec", "unschedulable"], .truth, unschedulable⟩,
    ⟨["status", "conditions"], .list .condition, conditions⟩,
    ⟨["status", "addresses"], .list .nodeAddress, addresses⟩] ++
  (inSection ["status", "nodeInfo"] nodeInfo NodeSystemInfo.fields ++
  [⟨["status", "images"], .list .containerImage, images⟩]))

theorem Node.reads : Reads Node.decode Node.fields := by
  intro d
  simp only [Node.decode, Node.fields, textField, fieldOr]
  refine .inSection ObjectMeta.reads rfl fun _ => .field rfl fun _ => .field rfl fun _ =>
    .field rfl fun _ => .field rfl fun _ => .inSection NodeSystemInfo.reads rfl fun _ =>
    .field rfl fun _ => .done ?_
  rintro ⟨⟩
  simp [and_assoc]

/-- The fields of a pod : the metadata, texts, and lists of parts in the status. -/
def Pod.fields : List (PartField Pod) :=
  inSection ["metadata"] metadata ObjectMeta.fields ++
  [⟨["spec", "nodeName"], .text, nodeName⟩, ⟨["status", "phase"], .text, phase⟩,
    ⟨["status", "conditions"], .list .condition, conditions⟩,
    ⟨["status", "initContainerStatuses"], .list .containerStatus, initContainers⟩,
    ⟨["status", "containerStatuses"], .list .containerStatus, containers⟩]

theorem Pod.reads : Reads Pod.decode Pod.fields := by
  intro d
  simp only [Pod.decode, Pod.fields, textField, fieldOr]
  refine .inSection ObjectMeta.reads rfl fun _ => .field rfl fun _ => .field rfl fun _ =>
    .field rfl fun _ => .field rfl fun _ => .field rfl fun _ => .done ?_
  rintro ⟨⟩
  simp [and_assoc, and_left_comm]

/-! ## Reading parts -/

namespace Part

/-- The fields of a part. -/
def fields : (p : Part) → List (PartField p.Object)
  | resource .clusterOperator => ClusterOperator.fields
  | resource .clusterVersion => ClusterVersion.fields
  | resource .infrastructure => Infrastructure.fields
  | resource .network => Network.fields
  | resource .authentication => Authentication.fields
  | resource .featureGate => FeatureGate.fields
  | resource .oauth => OAuth.fields
  | resource .ingress => Ingress.fields
  | resource .proxy => Proxy.fields
  | resource .node => Node.fields
  | resource .pod => Pod.fields
  | condition => Condition.fields
  | objectReference => ObjectReference.fields
  | operandVersion => OperandVersion.fields
  | clusterNetworkEntry => ClusterNetworkEntry.fields
  | identityProvider => IdentityProvider.fields
  | nodeAddress => NodeAddress.fields
  | containerImage => ContainerImage.fields
  | containerStatus => ContainerStatus.fields
  | termination => Termination.fields

/-- All resources have metadata. -/
theorem metadata_subset (k : Kind) :
    inSection ["metadata"] k.metadata ObjectMeta.fields ⊆ (resource k).fields := by
  cases k with
  | _ => exact List.subset_append_left _ _

/-- Every part is read field by field. -/
theorem reads (p : Part) (d : Yaml) : ReadsRest (p.decode d) (some d) p.fields fun _ => True := by
  cases p with
  | resource k =>
    cases k with
    | clusterOperator => exact ClusterOperator.reads _
    | clusterVersion => exact ClusterVersion.reads _
    | infrastructure => exact Infrastructure.reads _
    | network => exact Network.reads _
    | authentication => exact Authentication.reads _
    | featureGate => exact FeatureGate.reads _
    | oauth => exact OAuth.reads _
    | ingress => exact Ingress.reads _
    | proxy => exact Proxy.reads _
    | node => exact Node.reads _
    | pod => exact Pod.reads _
  | condition => exact Condition.reads _
  | objectReference => exact ObjectReference.reads _
  | operandVersion => exact OperandVersion.reads _
  | clusterNetworkEntry => exact ClusterNetworkEntry.reads _
  | identityProvider => exact IdentityProvider.reads _
  | nodeAddress => exact NodeAddress.reads _
  | containerImage => exact ContainerImage.reads _
  | containerStatus => exact ContainerStatus.reads _
  | termination => exact Termination.reads _

variable {p : Part} {d : Yaml} {o : p.Object}

/-- A part is decoded to the one object that has what is read in its fields. -/
theorem decode_eq_ok : p.decode d = .ok o ↔ ∀ f ∈ p.fields, f.read (some d) = .ok (f.get o) :=
  ((p.reads d).ok o).trans (and_iff_right trivial)

/-- A part is decoded if all its fields can be read. -/
theorem decode_eq_error :
    (∃ e, p.decode d = .error e) ↔ ∃ f ∈ p.fields, ∃ e, f.read (some d) = .error e := by
  simp only [← failure?_eq_some, (p.reads d).failure, mismatch?, ← Option.isSome_iff_exists,
    List.isSome_findSome?, List.any_eq_true]

end Part

/-- The status that says what is wrong with a manifest. -/
def mismatchStatus (k : Kind) (d : Yaml) (m : Yaml.Mismatch) : Status :=
  ⟨.parseError, k.name ++ " '" ++ metadataText "name" d ++ "': " ++ m.message⟩

theorem decode_map (k : Kind) (l : List (Yaml × Yaml)) :
    decode k (.map l) = ((Part.resource k).decode (.map l)).mapError (mismatchStatus k (.map l)) := by
  have hfields : (Part.resource k).decode (.map l) = decodeFields k (.map l) := rfl
  rw [decode, hfields]
  cases decodeFields k (.map l) with
  | error m => rfl
  | ok o => rfl

/-- A resource that cannot be decoded does not parse. -/
theorem code_of_decode_error {k : Kind} {d : Yaml} {st : Status} (h : decode k d = .error st) :
    st.code = .parseError := by
  unfold decode at h
  split at h
  · cases h
    rfl
  · split at h
    · cases h
    · cases h
      rfl

/-! ## Paths -/

section Paths

variable {d v : Yaml} {p : List Bytes}

theorem reach_null (p : List Bytes) : reach p (some .null) = some .null := by
  induction p with
  | nil => rfl
  | cons k p ih => exact ih

/-- Where a path of keys leads to a value, the reader finds it. -/
theorem reach_of_at? (h : d.at? p = some v) : reach p (some d) = some v := by
  induction p generalizing d with
  | nil => exact h
  | cons k p ih =>
    obtain ⟨d', hd', hrest⟩ := Option.bind_eq_some_iff.1 h
    cases d with
    | map l =>
      rw [reach, child, show Yaml.lookup k l = some d' from hd']
      exact ih hrest
    | null => cases hd'
    | scalar s => cases hd'
    | seq items => cases hd'

/-- Apart from nulls, nothing is reached that is not there. -/
theorem at?_of_reach (h : reach p (some d) = some v) (hv : v ≠ .null) : d.at? p = some v := by
  induction p generalizing d with
  | nil => exact h
  | cons k p ih =>
    have hnull : ∀ p, reach p (some .null) ≠ some v := fun p hreach =>
      hv (Option.some.inj ((reach_null p).symm.trans hreach)).symm
    cases d with
    | map l =>
      rw [Yaml.at?_cons, Yaml.get?]
      rw [reach, child] at h
      cases hl : Yaml.lookup k l with
      | none =>
        rw [hl] at h
        cases p with
        | nil => cases h
        | cons k' p => exact absurd h (hnull p)
      | some d' =>
        rw [hl] at h
        exact ih h
    | null => exact absurd h (hnull p)
    | scalar s => exact absurd h (hnull p)
    | seq items => exact absurd h (hnull p)

/-- What is not there is reached as nothing or as a null. -/
theorem reach_of_at?_eq_none (h : d.at? p = none) :
    reach p (some d) = none ∨ reach p (some d) = some .null := by
  cases hreach : reach p (some d) with
  | none => exact .inl rfl
  | some v =>
    by_cases hv : v = .null
    · exact .inr (congrArg some hv)
    · cases h.symm.trans (at?_of_reach hreach hv)

end Paths

end ClusterEvidence
