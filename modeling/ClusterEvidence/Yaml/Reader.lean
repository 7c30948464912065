import ClusterEvidence.Yaml.Basic

/-!
# Readers of YAML

A `Yaml.Reader` says which documents a text holds. Configurations and snapshots are read with
whichever reader is given, and nothing about it is taken for granted but that a document is a
finite tree. So where a reader resolves aliases, each stands for a copy of the anchored node, and
laying one document over another changes no node in two places.
-/

namespace ClusterEvidence

namespace Yaml

/-- What reads the documents of a text. -/
class Reader where
  /-- All documents of a text, or nothing if it is malformed. -/
  documents? : Bytes → Option (List Yaml)
  /-- The first document of a text, or nothing if it is malformed. -/
  document? : Bytes → Option Yaml

end Yaml

end ClusterEvidence
