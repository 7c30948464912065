import ClusterEvidence.Resource.Basic
import ClusterEvidence.Status

/-!
# Sources

A `Source σ` answers questions about a cluster : all operators, all nodes, the pods of a
namespace, and the resource of a kind with a given name. An answer may depend on the
state `σ` and may change it.
-/

namespace ClusterEvidence

/-- Where the resources of a cluster are read from. -/
structure Source (σ : Type) where
  operators : StateM σ (Fetched (List ClusterOperator))
  nodes : StateM σ (Fetched (List Node))
  pods : (namespaceName : Bytes) → StateM σ (Fetched (List Pod))
  get : (k : Kind) → (name : Bytes) → StateM σ (Fetched k.Object)

end ClusterEvidence
