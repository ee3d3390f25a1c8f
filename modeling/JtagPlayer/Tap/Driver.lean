import JtagPlayer.Action
import JtagPlayer.Tap.Route

/-!
# Driving a test access port

A `TapDriver` issues single clocks and keeps track of the state in which they leave the device. It
also spaces them: two rising edges of the clock line are at least the driver's delay apart.

`TapDriver.clock` is the only way in which the clock line is driven. Words of TMS levels, routes and
steps are sequences of clocks with the data line low.
-/

namespace JtagPlayer

/-- What is known of a device while it is driven. -/
structure TapDriver where
  /-- The state in which the last clock left the device. -/
  state : TapState := .reset
  /-- The least time between two rising edges, if there is any. -/
  delay : Option Nat := none
  /-- When the clock line last rose. -/
  lastRise : Option Nat := none
  /-- The number of rising edges so far. -/
  pulses : Nat := 0
  /-- The part of a wait that is not slept. -/
  spinThreshold : Nat
  deriving DecidableEq

namespace TapDriver

/-- The least time between two clocks at a rate of `hz` per second; a rate of zero is no limit. -/
def delayOf (hz : Float) : Except ParameterError (Option Nat) :=
  if hz == 0 then .ok none
  else if !hz.isFinite || hz < 0 then .error (.invalidFrequency hz)
  else
    match Duration.ofSeconds? (1 / hz) with
    | some delay => .ok (some delay)
    | none => .error (.invalidFrequency hz)

/-- Limits the clock rate. -/
def setFrequency (hz : Float) : Action TapDriver Unit := do
  let delay ← Action.ofParameter (delayOf hz)
  Action.modify fun driver => { driver with delay }

/-- Waits until the next rising edge is due. -/
def waitForEdge : Action TapDriver Unit := fun driver =>
  match driver.delay, driver.lastRise with
  | some delay, some rise => Action.waitFor rise delay driver.spinThreshold driver
  | _, _ => Action.pure () driver

/-- The driver after a rising edge with a TMS level at an instant. -/
def afterEdge (tms : Bool) (instant : Nat) (driver : TapDriver) : TapDriver :=
  { driver with
    state := driver.state.next tms
    lastRise := some instant
    pulses := driver.pulses + 1 }

/-- One clock: sets up both levels, lowers the clock line and raises it when that is due, and
samples what the device answers. -/
def clock (tms tdi : Bool) : Action TapDriver Bool := do
  -- The device takes over both levels at the rising edge.
  Action.write .tms tms
  Action.write .tdi tdi
  Action.write .tck false
  waitForEdge
  Action.write .tck true
  let instant ← Action.now
  -- From here on the clock counts, even if the answer cannot be sampled.
  Action.modify (afterEdge tms instant)
  Action.read .tdo

/-- One clock for each level of a word, with the data line low. -/
def clockWord : List Bool → Action TapDriver Unit
  | [] => pure ()
  | tms :: word => do
    let _ ← clock tms false
    clockWord word

/-- The number of clocks with TMS high that lead to the reset state from any other. -/
def resetClocks : Nat := 5

/-- Moves a device to the reset state, whatever its state was. -/
def reset : Action TapDriver Unit :=
  clockWord (List.replicate resetClocks true)

/-- Moves from one stable state to another along the canonical route. -/
def routeTo (target : TapState) : Action TapDriver Unit := do
  let driver ← Action.get
  match driver.state.route? target with
  | none => Action.fail (.move (.noRoute driver.state target))
  | some word => do
    Action.note (.route driver.state target word)
    clockWord word

/-- Moves to a state that is one clock away. -/
def stepTo (target : TapState) : Action TapDriver Unit := do
  let driver ← Action.get
  match driver.state.levelTo? target with
  | none => Action.fail (.move (.notNeighbour driver.state target))
  | some tms => do
    let _ ← clock tms false
    pure ()

/-- Steps through the states of a path, one after the other. -/
def walkPath : List TapState → Action TapDriver Unit
  | [] => pure ()
  | state :: path => do
    stepTo state
    walkPath path

end TapDriver

end JtagPlayer
