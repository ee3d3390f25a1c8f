import JtagPlayer.Bus.Basic

/-!
# A bus over four pins

A `PinBus` drives its lines through four pins that are already configured: three outputs and one
input. It is acquired and released by parking the outputs at a low level. A pin may fail but does
not tell why.

The pins themselves are a `PinBank`. `WiredPins` are connected to wires, which they may share, and
`LinePins` are the lines of another bus.
-/

namespace JtagPlayer

/-- Four pins whose state is a `β`. -/
class PinBank (β : Type) where
  /-- Drives the pin of a line and tells whether that succeeded. -/
  drive : Line → Bool → β → Bool × β
  /-- Samples the pin of a line, if possible. -/
  sample : Line → β → Option Bool × β

/-- A bus over four pins. -/
structure PinBus (β : Type) where
  pins : β

namespace PinBus

variable {β : Type} [PinBank β]

/-- The failure of a pin. -/
def pinFailure : IoError where
  kind := .other
  message := "Other"

/-- Drives lines low, one after the other, up to the first that fails. -/
def lower : List Line → β → Except IoError Unit × β
  | [], pins => (.ok (), pins)
  | line :: lines, pins =>
    match PinBank.drive line false pins with
    | (true, pins) => lower lines pins
    | (false, pins) => (.error pinFailure, pins)

/-- Drives all outputs low. -/
def park (bus : PinBus β) : Except IoError Unit × PinBus β :=
  let (result, pins) := lower [.tck, .tms, .tdi] bus.pins
  (result, { pins })

/-- Drives an output. -/
def write (line : Line) (level : Bool) (bus : PinBus β) : Except IoError Unit × PinBus β :=
  if line = .tdo then (.error .notDriven, bus)
  else
    let (driven, pins) := PinBank.drive line level bus.pins
    (if driven then .ok () else .error pinFailure, { pins })

/-- Samples the input. -/
def read (line : Line) (bus : PinBus β) : Except IoError Bool × PinBus β :=
  if line = .tdo then
    let (level, pins) := PinBank.sample line bus.pins
    (match level with
      | some level => .ok level
      | none => .error pinFailure, { pins })
  else (.error (.notSampled line), bus)

/-- What is noted if the outputs cannot be parked in the end. -/
def releaseNotes (bus : PinBus β) : List LogEntry :=
  match bus.park.1 with
  | .ok () => []
  | .error error => [.notParked error]

instance : Bus (PinBus β) where
  acquire := park
  write := write
  read := read
  release bus := bus.park.2
  releaseNotes := releaseNotes

end PinBus

/-- Pins that are connected to wires, by number. Some of them may be broken. -/
structure WiredPins where
  wire : Line → Nat
  levels : List Bool
  broken : List Line := []

instance : PinBank WiredPins where
  drive line level pins :=
    if pins.broken.contains line then (false, pins)
    else (true, { pins with levels := pins.levels.set (pins.wire line) level })
  sample line pins :=
    (if pins.broken.contains line then none else pins.levels[pins.wire line]?, pins)

/-- The lines of a bus, taken as pins. -/
structure LinePins (β : Type) where
  bus : β

instance {β : Type} [Bus β] : PinBank (LinePins β) where
  drive line level pins :=
    let (result, bus) := Bus.write line level pins.bus
    (result.isOk, { bus })
  sample line pins :=
    let (result, bus) := Bus.read line pins.bus
    (result.toOption, { bus })

end JtagPlayer
