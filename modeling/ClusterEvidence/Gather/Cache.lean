import ClusterEvidence.Bytes

/-!
# The last observed version

A `VersionedCache` holds the last observed instance of a resource. It is replaced only by
an instance of another version : versions are compared for equality and have no order, so
a version seen before counts as new once another one has been cached.
-/

namespace ClusterEvidence

/-- A cached value with its version, or nothing yet. -/
structure VersionedCache (α : Type) where
  entry : Option (Bytes × α) := none

namespace VersionedCache

variable {α : Type}

/-- The cached value. -/
def value? (c : VersionedCache α) : Option α := c.entry.map Prod.snd

/-- The version of the cached value. -/
def version? (c : VersionedCache α) : Option Bytes := c.entry.map Prod.fst

/-- An observed value replaces the cached one unless it has its version; the flag tells
whether it did. -/
def update (version : Bytes) (a : α) (c : VersionedCache α) : Bool × VersionedCache α :=
  if c.version? = some version then (false, c) else (true, ⟨some (version, a)⟩)

end VersionedCache

end ClusterEvidence
