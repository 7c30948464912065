import ClusterEvidence.Files.Tree
import ClusterEvidence.Run.Name

/-!
# Pruning old runs

`prune` keeps the newest run directories of an output directory and removes the others, by the
times in their names. Nothing else in the directory is touched.

It goes by a listing of the directory, in which there may be more than a tree holds
(`ListedEntry`) : of a link that leads nowhere it cannot be seen whether it is a directory, and a
link to a directory is shown as one. An entry that cannot be looked at ends the listing at the
entry behind it, and then nothing is removed (`runsListed`).

Each run is removed by its path below the output directory, which is followed anew every time
(`removeRun`). If it does not lead anywhere any more, as when the path of the output directory
goes through a run that has been removed, that is no failure, and the run stays. The path of
the output directory is taken to be free of zero bytes.
-/

namespace ClusterEvidence

/-! ## Listings -/

/-- An entry of a directory as a listing shows it : its name, and whether it is a directory, if
that can be seen. -/
structure ListedEntry where
  name : Bytes
  directory? : Option Bool
deriving DecidableEq

/-- The listing of a directory of a tree, in the order of the entries. -/
def FileTree.listing (t : FileTree) (l : Location) : List ListedEntry :=
  t.entries.filterMap fun e =>
    if e.1.length = l.length + 1 ∧ e.1.dropLast = l then
      e.1.getLast?.map fun name => ⟨name, some !e.2.isFile⟩
    else none

/-- The run that a listed entry is, with its time. -/
def ListedEntry.run? (x : ListedEntry) : Option (Nat × Bytes) :=
  if x.directory? = some true then (RunName.time? x.name).map fun time => (time, x.name) else none

/-- The runs in a listing, or nothing if the listing is given up. -/
def runsListed : List ListedEntry → Option (List (Nat × Bytes))
  | [] => some []
  | x :: rest =>
    if x.directory? = none ∧ rest ≠ [] then none
    else (runsListed rest).map fun runs => x.run?.toList ++ runs

/-- The run directories in a directory, each with its time. -/
def runsIn (t : FileTree) (l : Location) : List (Nat × Bytes) :=
  (runsListed (t.listing l)).getD []

/-! ## Removing -/

/-- The runs in the order of their times, the newest first. -/
def newestFirst (runs : List (Nat × Bytes)) : List (Nat × Bytes) :=
  runs.mergeSort fun a b => decide (b.1 ≤ a.1)

/-- The runs beyond the `keep` newest. -/
def surplus (keep : Nat) (runs : List (Nat × Bytes)) : List (Nat × Bytes) :=
  (newestFirst runs).drop keep

/-- Remove a run by its path. If it is not there any more that is no failure. -/
def removeRun (outDir name : Bytes) (t : FileTree) : FileTree × Option FsError :=
  match t.resolve outDir with
  | .error .missing => (t, none)
  | .error e => (t, some e)
  | .ok l =>
    if FileTree.maxPath ≤ (Path.join outDir name).length then (t, some .nameTooLong)
    else (t.removeAll (l ++ [name]), none)

/-- Remove runs one after the other. Of those that could not be removed, the paths and why. -/
def removeRuns (outDir : Bytes) :
    List (Nat × Bytes) → FileTree → FileTree × List (Bytes × FsError)
  | [], t => (t, [])
  | run :: runs, t =>
    let (t, failure) := removeRun outDir run.2 t
    let (t, failures) := removeRuns outDir runs t
    (t, (failure.toList.map fun e => (Path.join outDir run.2, e)) ++ failures)

/-- An output directory without the runs beyond the `keep` newest, going by a listing of it. -/
def prune (keep : Nat) (outDir : Bytes) (listing : List ListedEntry) (t : FileTree) :
    FileTree × List (Bytes × FsError) :=
  match runsListed listing with
  | none => (t, [])
  | some runs => removeRuns outDir (surplus keep runs) t

end ClusterEvidence
