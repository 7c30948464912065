import ClusterEvidence.Files.Tree

/-!
# Changes of a file tree

`FileTree.changes` lists what has to be done to a tree to make another one of it : first
what is removed, by the outermost location, then what is made or written, directories
before what stands in them.
-/

namespace ClusterEvidence

/-- One step from a tree to another. -/
inductive Change
  | remove (l : Location)
  | makeDirectory (l : Location)
  | write (l : Location) (content : Bytes)
deriving DecidableEq

namespace FileTree

/-- What is gone, where the directory it stood in is still there. -/
def removals (before after : FileTree) : List Change :=
  before.entries.filterMap fun e =>
    if (after.at? e.1).isNone && (after.at? e.1.dropLast).isSome then some (.remove e.1) else none

/-- What is new or has another content. -/
def additions (before after : FileTree) : List Change :=
  after.entries.filterMap fun e =>
    if before.at? e.1 = some e.2 then none
    else match e.2 with
      | .directory => some (.makeDirectory e.1)
      | .file s => some (.write e.1 s)

/-- The steps from one tree to another. -/
def changes (before after : FileTree) : List Change :=
  removals before after ++ additions before after

end FileTree

end ClusterEvidence
