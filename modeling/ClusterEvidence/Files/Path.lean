import ClusterEvidence.Bytes

/-!
# Paths

A path is a byte string whose parts stand between slashes, kept as it is spelled :
messages show the spelling a caller gave. `Path.join` puts a path below another,
`Path.parent` drops the last part, and `Path.ending` is the part of a file name from its
last dot on.
-/

namespace ClusterEvidence

namespace Path

/-- The byte between the parts of a path. -/
def slash : UInt8 := 0x2f

/-- The path starts at the root. -/
def isAbsolute (p : Bytes) : Bool := p.head? == some slash

/-- What the system sees of a path : a zero byte ends it. -/
def visible (p : Bytes) : Bytes := p.takeWhile (· != 0)

/-- The parts of a path, empty ones included. -/
def parts (p : Bytes) : List Bytes := Bytes.pieces slash p

/-- The path `q` seen from the directory `p`. -/
def join (p q : Bytes) : Bytes :=
  if isAbsolute q ∨ p.isEmpty then q
  else if p.getLast? = some slash then p ++ q
  else p ++ slash :: q

/-- The last part of a path, empty behind a slash at the end. -/
def fileName (p : Bytes) : Bytes := (p.reverse.takeWhile (· != slash)).reverse

/-- The path without its last part and the slashes before that. -/
def parent (p : Bytes) : Bytes :=
  let front := ((p.reverse.dropWhile (· != slash)).dropWhile (· == slash)).reverse
  if front.isEmpty ∧ isAbsolute p then [slash] else front

/-- A file name from its last dot on; nothing for a name whose only dot is its first
byte, and for the names of directories themselves. -/
def ending (name : Bytes) : Bytes :=
  if name = "." ∨ name = ".." then []
  else
    let tail := (name.reverse.takeWhile (· != 0x2e)).reverse
    if tail.length + 1 < name.length then 0x2e :: tail else []

/-- Only double dots : the working directory and the directories above it. -/
def isAbove (l : List Bytes) : Bool := l.all (· == "..")

/-- One directory up. The root stays where it is, and the way up from the working directory
has no other name than double dots. -/
def up (here : List Bytes) : List Bytes :=
  if here = [[]] then here
  else if isAbove here then here ++ [Bytes.ofString ".."]
  else here.dropLast

/-- Dots removed and double dots resolved by their spelling, below `here`. -/
def normalize (here : List Bytes) : List Bytes → List Bytes
  | [] => here
  | p :: ps =>
    if p = [] ∨ p = "." then normalize here ps
    else if p = ".." then normalize (up here) ps
    else normalize (here ++ [p]) ps

/-- The last part is empty or dots, so only a directory can stand at the end. -/
def namesDirectory (rest : List Bytes) : Bool :=
  match rest.getLast? with
  | some p => p == [] || p == "." || p == ".."
  | none => false

/-- Where the parts lead below `here` by their spelling, for the path of a file. -/
def normalize? (here rest : List Bytes) : Option (List Bytes) :=
  if namesDirectory rest then none else some (normalize here rest)

end Path

end ClusterEvidence
