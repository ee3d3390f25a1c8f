import JtagPlayer.Bus.Basic

/-!
# A bus without a device

A `LoopbackBus` answers with the level of its own data line, so that every scan returns what it
sent. It serves to try out a program. It never fails, and it counts the rising edges of the clock.
-/

namespace JtagPlayer

/-- The state of a bus without a device. -/
structure LoopbackBus where
  tck : Bool := false
  tdi : Bool := false
  /-- The number of rising edges so far. -/
  pulses : Nat := 0
  deriving DecidableEq

namespace LoopbackBus

/-- Brings a line to a level. -/
def setLine (line : Line) (level : Bool) (bus : LoopbackBus) : LoopbackBus :=
  match line with
  | .tck => { bus with tck := level, pulses := bus.pulses + (level && !bus.tck).toNat }
  | .tdi => { bus with tdi := level }
  | .tms | .tdo => bus

instance : Bus LoopbackBus where
  acquire bus := (.ok (), bus)
  write line level bus := (.ok (), bus.setLine line level)
  read _ bus := (.ok bus.tdi, bus)
  release bus := bus
  acquireNotes _ := [.loopbackInitialized]
  releaseNotes bus := [.loopbackReleased bus.pulses]

end LoopbackBus

end JtagPlayer
