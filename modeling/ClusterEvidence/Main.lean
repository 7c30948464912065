import ClusterEvidence.CommandLine
import ClusterEvidence.Files.Changes
import Std.Time.DateTime.Timestamp

/-!
# The program

The program is called with the arguments of `CommandLine.run`. Standard input lists the
files and directories that it may see, one path a line, where the path of a directory ends
with a slash. They are read, the call is run on them, and what it changed is written back.
Standard output and standard error carry what the call prints, and the log follows on
standard error. All times of a call are the time it began at.
-/

namespace ClusterEvidence

namespace Program

/-- The lines of a stream up to its end. -/
partial def readLines (h : IO.FS.Stream) : IO (List String) := do
  let line ← h.getLine
  if line.isEmpty then return []
  return (line.dropEndWhile (· == '\n')).toString :: (← readLines h)

/-- A tree with what stands at a path. -/
def look (t : FileTree) (path : String) : IO FileTree := do
  let p := Bytes.ofString path
  if p.getLast? = some Path.slash then
    return (t.createDirectories p).1
  else
    let content ← IO.FS.readBinFile path
    return t.plant p content.toList

/-- The path of a location, if it is a text. -/
def pathOf (l : Location) : Option String :=
  let p := Bytes.join [Path.slash] l
  String.fromUTF8? ⟨p.toArray⟩

/-- Take a step in the file system. -/
def carryOut (c : Change) : IO Unit := do
  match c with
  | .remove l => if let some p := pathOf l then IO.FS.removeDirAll p
  | .makeDirectory l => if let some p := pathOf l then IO.FS.createDirAll p
  | .write l s => if let some p := pathOf l then IO.FS.writeBinFile p ⟨s.toArray⟩

/-- Print bytes as they are. -/
def put (h : IO.FS.Stream) (s : Bytes) : IO Unit := h.write ⟨s.toArray⟩

end Program

end ClusterEvidence

open ClusterEvidence Program in
/-- One call of the program. -/
def main (args : List String) : IO UInt32 := do
  let started ← Std.Time.Timestamp.now
  let before ← (← readLines (← IO.getStdin)).foldlM look {}
  let now := Int64.ofInt started.toNanosecondsSinceUnixEpoch.val
  let r := CommandLine.run (args.map Bytes.ofString) before { now := now }
  (before.changes r.tree).forM carryOut
  put (← IO.getStdout) r.stdout
  let err ← IO.getStderr
  put err r.stderr
  r.log.forM fun l => put err (l.render ++ "\n")
  return UInt32.ofNat r.exit
