import ClusterEvidence.Surroundings

/-!
# Names of runs and records

A run directory is called `insights-` and the decimal start time of the run.
`RunName.time?` reads the time back, and accepts any digits whose value fits 64 bits
with a sign. A record name is a relative path with parts that stay below where they
start : `RecordName.isSafe` looks at each part as it ends.
-/

namespace ClusterEvidence

namespace RunName

/-- What the names of run directories start with. -/
def start : Bytes := "insights-"

/-- The name of the run that starts at a time. -/
def ofTime (t : Nanoseconds) : Bytes := start ++ Bytes.decimal t.toInt

/-- Times stay below this bound : they are signed numbers of 64 bits. -/
def timeBound : Nat := 9223372036854775808

/-- The time that the name of a run directory gives; none for any other name. -/
def time? (name : Bytes) : Option Nat :=
  if Bytes.startsWith start name then
    (Bytes.natural? (name.drop start.length)).filter fun n => decide (n < timeBound)
  else none

end RunName

namespace RecordName

/-- A part of a path that names something below where it stands. -/
def isSafePart (p : Bytes) : Bool := p != [] && p != "." && p != ".."

/-- Every part of the rest is safe, `part` being what was read of the current one. -/
def isSafeFrom (part : Bytes) : Bytes → Bool
  | [] => isSafePart part
  | b :: rest =>
    if b = 0x2f then isSafePart part && isSafeFrom [] rest
    else isSafeFrom (part ++ [b]) rest

/-- A name that a record can be stored under. -/
def isSafe (name : Bytes) : Bool := isSafeFrom [] name

/-- The file of a record, below the run directory. -/
def fileName (name ext : Bytes) : Bytes := if ext.isEmpty then name else name ++ "." ++ ext

end RecordName

end ClusterEvidence
