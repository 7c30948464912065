import ClusterEvidence.Files.Path

/-!
# Trees of files

A `FileTree` holds the files and directories that a run can see, by their `Location` :
the names on the way from the working directory, which has the empty location. Double dots
in front lead to the directories above it, an empty name to the root instead.

There are no links and nothing else but files and directories. Every file that is there can be
read and every directory listed, and writing to a file that was opened does not fail.

`FileTree.resolve` walks a path through the tree, part by part, the way a system call
does, which sees a path up to its first zero byte, and `FileTree.stat` says what stands at
its end. `createDirectories`, `writeFile`, `writeAt` and `removeAll` change a tree.
`FsError.message` is the system's text for what went wrong.
-/

namespace ClusterEvidence

/-- What stands at a location. -/
inductive Entry
  | file (content : Bytes)
  | directory
deriving DecidableEq

/-- It is a file. -/
def Entry.isFile : Entry → Bool
  | file _ => true
  | directory => false

/-- The names on the way to a file or directory. -/
abbrev Location := List Bytes

/-- Why the file system refuses a request. -/
inductive FsError
  | missing
  | notDirectory
  | nameTooLong
  | existsAlready
  | invalid
deriving DecidableEq

/-- The system's text. -/
def FsError.message : FsError → Bytes
  | missing => "No such file or directory"
  | notDirectory => "Not a directory"
  | nameTooLong => "File name too long"
  | existsAlready => "File exists"
  | invalid => "Invalid argument"

/-- The files and directories below the working directory. -/
structure FileTree where
  entries : List (Location × Entry) := []
deriving DecidableEq

namespace FileTree

/-- The longest name of a file. -/
def maxName : Nat := 255

/-- The length that a path has to stay below. -/
def maxPath : Nat := 4096

/-! ## Looking -/

/-- What stands at a location; the working directory and those above it are always there. -/
def at? (t : FileTree) (l : Location) : Option Entry :=
  if Path.isAbove l then some .directory else (t.entries.find? fun e => e.1 == l).map Prod.snd

/-- The location that the parts of a path lead to from a location. All of it but its last
name has to be there. -/
def walk (t : FileTree) (here : Location) : List Bytes → Except FsError Location
  | [] => .ok here
  | p :: ps =>
    match t.at? here with
    | none => .error .missing
    | some (.file _) => .error .notDirectory
    | some .directory =>
      if p = [] ∨ p = "." then walk t here ps
      else if p = ".." then walk t (Path.up here) ps
      else if maxName < p.length then .error .nameTooLong
      else walk t (here ++ [p]) ps

/-- The location a path leads to, whether or not something stands there. -/
def resolve (t : FileTree) (p : Bytes) : Except FsError Location :=
  let p := Path.visible p
  if maxPath ≤ p.length then .error .nameTooLong
  else if p.isEmpty then .error .missing
  else if Path.isAbsolute p then walk t [[]] (Path.parts p)
  else walk t [] (Path.parts p)

/-- What stands at the end of a path. -/
def stat (t : FileTree) (p : Bytes) : Except FsError Entry :=
  match t.resolve p with
  | .error e => .error e
  | .ok l => match t.at? l with
    | none => .error .missing
    | some e => .ok e

/-- The content of the file at the end of a path. -/
def readFile? (t : FileTree) (p : Bytes) : Option Bytes :=
  match t.stat p with
  | .ok (.file s) => some s
  | _ => none

/-- The way from a directory to a location below it. -/
def wayBelow? (l l' : Location) : Option Location :=
  let way := l'.drop l.length
  if l.isPrefixOf l' ∧ way.all fun name => !name.isEmpty && name != ".." then some way else none

/-- The files below a directory, by the way there. -/
def filesBelow (t : FileTree) (l : Location) : List (Location × Bytes) :=
  t.entries.filterMap fun e =>
    match e.2 with
    | .file s => (wayBelow? l e.1).map fun way => (way, s)
    | .directory => none

/-- How many files there are. -/
def fileCount (t : FileTree) : Nat :=
  t.entries.countP fun e => e.2.isFile

/-! ## One key for each file -/

/-- Follow the parts of a path as far as they are there, and resolve the rest by its
spelling, zero bytes and what is behind them included. There is no location if nothing of
the path is there, or if the rest is spelled as the path of a directory : no file has such
a path. -/
def follow (t : FileTree) (here : Option Location) : List Bytes → Option Location
  | [] => here
  | p :: ps =>
    match t.walk (here.getD []) [Path.visible p] with
    | .ok l =>
      if (t.at? l).isSome then follow t (some l) ps
      else here.bind fun l => Path.normalize? l (p :: ps)
    | .error _ => here.bind fun l => Path.normalize? l (p :: ps)

/-- The location of what a path leads to, the same for every spelling. Of a path that leads
to nothing, the location that its spelling would have. -/
def canonical? (t : FileTree) (p : Bytes) : Option Location :=
  match t.stat p with
  | .ok _ => (t.resolve p).toOption
  | .error .nameTooLong => none
  | .error _ =>
    if (Path.visible p).isEmpty then none
    else if Path.isAbsolute p then
      if (t.at? [[]]).isSome then t.follow (some [[]]) (Path.parts p) else none
    else t.follow none (Path.parts p)

/-! ## Changing -/

/-- Put something at a location in place of what stands there. -/
def setEntry (l : Location) (e : Entry) : List (Location × Entry) → List (Location × Entry)
  | [] => [(l, e)]
  | x :: rest => if x.1 = l then (l, e) :: rest else x :: setEntry l e rest

/-- Put something at a location. -/
def put (l : Location) (e : Entry) (t : FileTree) : FileTree := ⟨setEntry l e t.entries⟩

/-- Make one directory. -/
def makeDirectory (t : FileTree) (p : Bytes) : Except FsError FileTree :=
  match t.resolve p with
  | .error e => .error e
  | .ok l => match t.at? l with
    | none => .ok (t.put l .directory)
    | some .directory => .ok t
    | some (.file _) => .error .existsAlready

/-- As many directories can be missing on the way to one. -/
def maxMissing : Nat := 1000

/-- The directories on the way to a path that are not there, outermost first. -/
def missingOn (t : FileTree) : Nat → Bytes → List Bytes → Except FsError (List Bytes)
  | 0, _, found => .ok found
  | n + 1, p, found =>
    let name := Path.fileName p
    let above := Path.parent p
    let found := if name = "." ∨ name = ".." then found else p :: found
    if maxMissing < found.length then .error .nameTooLong
    else if above.isEmpty then .ok found
    else match t.stat above with
      | .ok .directory => .ok found
      | .ok (.file _) => .error .notDirectory
      | .error .nameTooLong => .error .nameTooLong
      | .error _ => missingOn t n above found

/-- Make directories one after the other until one fails. -/
def makeAll (t : FileTree) : List Bytes → FileTree × Option FsError
  | [] => (t, none)
  | p :: ps =>
    match t.makeDirectory p with
    | .ok t => makeAll t ps
    | .error e => (t, some e)

/-- Make a directory and all that are missing on the way. What could be made stays, even
if a later one could not. -/
def createDirectories (t : FileTree) (p : Bytes) : FileTree × Option FsError :=
  if p.isEmpty then (t, some .invalid)
  else match t.stat p with
    | .ok .directory => (t, none)
    | .ok (.file _) => (t, some .notDirectory)
    | .error .nameTooLong => (t, some .nameTooLong)
    | .error _ =>
      let p := if p.getLast? = some Path.slash then Path.parent p else p
      match t.missingOn (p.length + 1) p [] with
      | .error e => (t, some e)
      | .ok found => t.makeAll found

/-- Write a file in place of one that may be there; none if it cannot be opened. -/
def writeFile (t : FileTree) (p : Bytes) (s : Bytes) : Option (FileTree × Location) :=
  if (Path.visible p).getLast? = some Path.slash then none
  else match t.resolve p with
    | .error _ => none
    | .ok l => match t.at? l with
      | some .directory => none
      | _ => some (t.put l (.file s), l)

/-- A file with all directories on the way to it. Where they cannot be made, or a directory
is in its place, the file is not there. -/
def plant (t : FileTree) (p : Bytes) (s : Bytes) : FileTree :=
  let above := Path.parent p
  let t := if above.isEmpty then t else (t.createDirectories above).1
  ((t.writeFile p s).map Prod.fst).getD t

/-- The bytes of a file with `s` written over them from `offset` on; a gap is filled with
zeros. -/
def overwrite (old : Bytes) (offset : Nat) (s : Bytes) : Bytes :=
  old.take offset ++ List.replicate (offset - old.length) 0 ++ s ++ old.drop (offset + s.length)

/-- Write into a file that is open at a location. -/
def writeAt (t : FileTree) (l : Location) (offset : Nat) (s : Bytes) : FileTree :=
  match t.at? l with
  | some (.file old) => t.put l (.file (overwrite old offset s))
  | _ => t

/-- Remove what stands at a location and everything below. -/
def removeAll (t : FileTree) (l : Location) : FileTree :=
  ⟨t.entries.filter fun e => !l.isPrefixOf e.1⟩

end FileTree

end ClusterEvidence
