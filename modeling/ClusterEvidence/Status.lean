import ClusterEvidence.Bytes

/-!
# Statuses

Every fallible step answers with a `Status` : a `Code` that callers branch on and a
message for people. `Fetched α` is a value or the status that explains its absence.
`Status.annotate` puts a context in front of a failure and leaves success alone;
`Status.describe` is the text shown to an operator. `firstFailure` runs down a list of
statuses and stops where one is not OK.
-/

namespace ClusterEvidence

/-- What kind of answer a status is. -/
inductive Code
  | ok
  | invalidArgument
  | notFound
  | ioError
  | parseError
  | internal
  | cancelled
  | gatherFailed
  | other (number : Int)
deriving DecidableEq

namespace Code

/-- The number of a code. -/
def number : Code → Int
  | ok => 0
  | invalidArgument => 1
  | notFound => 2
  | ioError => 3
  | parseError => 4
  | internal => 5
  | cancelled => 6
  | gatherFailed => 7
  | other n => n

/-- The code with a given number. -/
def ofNumber (n : Int) : Code :=
  if n = 0 then ok
  else if n = 1 then invalidArgument
  else if n = 2 then notFound
  else if n = 3 then ioError
  else if n = 4 then parseError
  else if n = 5 then internal
  else if n = 6 then cancelled
  else if n = 7 then gatherFailed
  else other n

/-- The name an operator reads; all unlisted numbers share one. -/
def name : Code → Bytes
  | ok => "OK"
  | invalidArgument => "INVALID_ARGUMENT"
  | notFound => "NOT_FOUND"
  | ioError => "IO_ERROR"
  | parseError => "PARSE_ERROR"
  | internal => "INTERNAL"
  | cancelled => "CANCELLED"
  | gatherFailed => "GATHER_FAILED"
  | other _ => "UNKNOWN"

end Code

/-- A code and its message. -/
structure Status where
  code : Code := .ok
  message : Bytes := []
deriving DecidableEq

namespace Status

/-- Success, with nothing to say. -/
def ok : Status := {}

/-- Only the code decides : a status with code OK is fine whatever its message. -/
def isOk (s : Status) : Bool := s.code == .ok

/-- The thing asked for does not exist. -/
def isNotFound (s : Status) : Bool := s.code == .notFound

/-- The work was interrupted. -/
def isCancelled (s : Status) : Bool := s.code == .cancelled

/-- A failure with `context` in front of its message; success stays as it is. -/
def annotate (context : Bytes) (s : Status) : Status :=
  if s.isOk then s else { s with message := context ++ ": " ++ s.message }

/-- `OK`, or the name of the code and the message. -/
def describe (s : Status) : Bytes :=
  if s.isOk then "OK" else s.code.name ++ ": " ++ s.message

/-- The status of interrupted work. -/
def interrupted : Status := ⟨.cancelled, "context canceled"⟩

/-- The first status that is not OK, and OK if there is none. -/
def firstFailure (l : List Status) : Status := (l.find? fun s => !s.isOk).getD ok

/-- How many statuses are OK before the first that is not. -/
def passed (l : List Status) : Nat := (l.takeWhile isOk).length

end Status

/-- A value, or the status that explains why there is none. -/
abbrev Fetched (α : Type) := Except Status α

namespace Fetched

variable {α : Type}

/-- OK for a value. -/
def status : Fetched α → Status
  | .ok _ => .ok
  | .error s => s

/-- The value, or what reading one that is not there answers. -/
def read : Fetched α → Except Bytes α
  | .ok a => .ok a
  | .error _ => .error "bad optional access"

end Fetched

end ClusterEvidence
