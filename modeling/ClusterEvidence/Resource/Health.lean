import ClusterEvidence.Resource.Basic

/-!
# Health

Evidence is gathered of what is not well. An operator fails when it is degraded or
unavailable, a node when it has a readiness condition that is not true, a pod when it is
pending or one of its containers ended with an error. `ClusterOperator.namespaces` are
where the pods of an operator run.
-/

namespace ClusterEvidence

/-- Neither degraded nor unavailable. -/
def ClusterOperator.isHealthy (o : ClusterOperator) : Bool :=
  o.conditions.all fun c =>
    !(c.type == "Degraded" && c.status == "True") && !(c.type == "Available" && c.status == "False")

/-- No readiness condition but a true one. -/
def Node.isHealthy (o : Node) : Bool :=
  o.conditions.all fun c => !(c.type == "Ready" && c.status != "True")

/-- The container ended, and not with exit code zero. -/
def ContainerState.failed (s : ContainerState) : Bool :=
  match s.terminated with
  | some t => t.exitCode != 0
  | none => false

/-- The container failed now or before its last start. -/
def ContainerStatus.failed (c : ContainerStatus) : Bool := c.lastState.failed || c.state.failed

/-- Not pending, and no container failed. -/
def Pod.isHealthy (o : Pod) : Bool :=
  o.phase != "Pending" && !o.initContainers.any ContainerStatus.failed
    && !o.containers.any ContainerStatus.failed

/-- The namespaces among the related objects, in order. -/
def ClusterOperator.namespaces (o : ClusterOperator) : List Bytes :=
  (o.relatedObjects.filter fun r => r.resource == ("namespaces" : Bytes)).map ObjectReference.name

end ClusterEvidence
