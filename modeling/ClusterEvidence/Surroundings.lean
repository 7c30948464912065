import ClusterEvidence.Log

/-!
# The surroundings of a batch

While a batch runs, an interrupt may arrive, time passes and messages are logged.
`Surroundings σ` says how these happen in a state `σ` of any type : `cancelled` looks at
the cancellation flag, and may itself move the state, so a flag that is raised between
two looks is covered; `note` logs a message, and an interrupt may come with it;
`wallClock` and `stopwatch` read the time in nanoseconds. Whatever is proved for every
`σ` and every `Surroundings σ` holds for an interrupt at any moment.

`truncateToMs` drops what is below a millisecond, toward zero.
-/

namespace ClusterEvidence

/-- A time or a duration in nanoseconds. -/
abbrev Nanoseconds := Int64

/-- What is below a millisecond is dropped, toward zero. -/
def truncateToMs (d : Nanoseconds) : Nanoseconds := d - d % 1000000

/-- How a batch sees the cancellation flag, the log and the clocks in a state `σ`. -/
structure Surroundings (σ : Type) where
  cancelled : StateM σ Bool
  note : Level → Bytes → StateM σ Unit
  wallClock : StateM σ Nanoseconds
  stopwatch : StateM σ Nanoseconds

namespace Surroundings

variable {σ τ : Type}

/-- Run an action on the second half of a state. -/
def onSnd {κ α : Type} (act : StateM σ α) : StateM (κ × σ) α := fun s =>
  let r := act s.2
  (r.1, (s.1, r.2))

/-- The same surroundings seen from a state that carries `κ` as well. -/
def beside (κ : Type) (env : Surroundings σ) : Surroundings (κ × σ) where
  cancelled := onSnd env.cancelled
  note := fun l text => onSnd (env.note l text)
  wallClock := onSnd env.wallClock
  stopwatch := onSnd env.stopwatch

end Surroundings

end ClusterEvidence
