import ClusterEvidence.Yaml.Decode

/-!
# Layers of documents

`overlay` lays one document over another. Two maps are combined key by key; anything
else is taken from the top layer as a whole, and a null counts as something. The keys of
the top layer must be scalars. As the layers are trees without aliases, setting a key in one
place changes no other.
-/

namespace ClusterEvidence

namespace Yaml

mutual

/-- The document `top` over the document `bottom`. -/
def overlay (bottom : Yaml) : Yaml → Decoded Yaml
  | map tops =>
    match bottom with
    | map bots => (overlayEntries bots tops).map Yaml.map
    | _ => .ok (map tops)
  | top => .ok top

/-- The entries of a map laid over those of another, one after the other. -/
def overlayEntries (bots : List (Yaml × Yaml)) : List (Yaml × Yaml) → Decoded (List (Yaml × Yaml))
  | [] => .ok bots
  | (key, top) :: tops => do
    let k ← toText key
    let v ← match lookup k bots with
      | some bottom => overlay bottom top
      | none => .ok top
    overlayEntries (setEntry k v bots) tops

end

end Yaml

end ClusterEvidence
