import ClusterEvidence.Status

/-!
# The log

A `Logger` keeps the lines at or above its level. `Level.ofName?` knows the names a
level may be set by, which are more than the names it is shown by (`Level.name`).
`Logger.setLevel` refuses an unknown name and leaves the logger as it was.
-/

namespace ClusterEvidence

/-- How serious a message is, or from where on messages are kept. -/
inductive Level
  | trace
  | debug
  | info
  | warning
  | error
  | critical
  | off
deriving DecidableEq

namespace Level

/-- The place of a level from chatty to silent. -/
def rank : Level → Nat
  | trace => 0
  | debug => 1
  | info => 2
  | warning => 3
  | error => 4
  | critical => 5
  | off => 6

/-- The name a level is shown by. -/
def name : Level → Bytes
  | trace => "trace"
  | debug => "debug"
  | info => "info"
  | warning => "warning"
  | error => "error"
  | critical => "critical"
  | off => "off"

/-- The level a name stands for; `warn` and `err` are short forms. -/
def ofName? (s : Bytes) : Option Level :=
  if s = "trace" then some trace
  else if s = "debug" then some debug
  else if s = "info" then some info
  else if s = "warning" ∨ s = "warn" then some warning
  else if s = "error" ∨ s = "err" then some error
  else if s = "critical" then some critical
  else if s = "off" then some off
  else none

end Level

/-- One message of the log. -/
structure LogLine where
  level : Level
  text : Bytes
deriving DecidableEq

namespace LogLine

/-- The line as it is shown. -/
def render (l : LogLine) : Bytes := l.level.name ++ ": " ++ l.text

end LogLine

/-- The lines kept so far, oldest first, and the level from which on lines are kept. -/
structure Logger where
  level : Level := .info
  lines : List LogLine := []
deriving DecidableEq

namespace Logger

/-- A message below the level leaves no line. -/
def write (l : Level) (text : Bytes) (log : Logger) : Logger :=
  if log.level.rank ≤ l.rank then { log with lines := log.lines ++ [⟨l, text⟩] } else log

/-- Set the level by name. -/
def setLevel (name : Bytes) (log : Logger) : Status × Logger :=
  match Level.ofName? name with
  | some l => (.ok, { log with level := l })
  | none => (⟨.invalidArgument, "unknown log level: " ++ name⟩, log)

end Logger

end ClusterEvidence
