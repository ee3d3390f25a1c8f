import JtagPlayer.Log

/-!
# Buses

A `Bus` carries levels between a player and a device. Its operations act on a state and may fail; a
failed operation also leaves a state behind. A bus is acquired before a run and released after it,
and may have something to note about both.
-/

namespace JtagPlayer

/-- A bus whose state is a `β`. -/
class Bus (β : Type) where
  /-- Prepares the lines for a run. -/
  acquire : β → Except IoError Unit × β
  /-- Drives a line to a level. -/
  write : Line → Bool → β → Except IoError Unit × β
  /-- Samples a line. -/
  read : Line → β → Except IoError Bool × β
  /-- Gives the lines back. -/
  release : β → β
  /-- What is noted when the bus is acquired. -/
  acquireNotes : β → List LogEntry := fun _ => []
  /-- What is noted when the bus is released. -/
  releaseNotes : β → List LogEntry := fun _ => []

end JtagPlayer
